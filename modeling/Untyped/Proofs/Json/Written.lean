import Mathlib
import Untyped.Json.Writer
import Untyped.Proofs.Json.Numbers
import Untyped.Proofs.Json.Strings
import Untyped.Proofs.Json.Tree

/-! What is written is derived: in any layout of blanks the text of a tree has a derivation of the
same depth, whose tree is the written one if its numbers are read back as themselves. -/
namespace Untyped

namespace Digit

theorem exists_ofNat (n : Nat) : ∃ d ds, ofNat n = d :: ds ∧ (d = 0 → ds = []) := by
  induction n using Nat.strongRecOn with
  | ind n ih =>
    rw [ofNat]
    split
    next => exact ⟨_, [], rfl, fun _ => rfl⟩
    next large =>
      obtain ⟨d, ds, h, lone⟩ := ih (n / 10) (by omega)
      refine ⟨d, ds ++ [Fin.ofNat 10 n], by rw [h]; rfl, fun zero => ?_⟩
      have value := toNat_ofNat (n / 10)
      rw [h, zero, lone zero] at value
      have : toNat [(0 : Digit)] = 0 := rfl
      omega

end Digit

namespace Json

/-! ### Numbers -/

def Means (n : Number) (meant : Option Number) : Prop :=
  ∃ t : NumberToken, t.text = n.write ∧ t.number? = meant

theorem means_integer (k : Int) (h : -0x8000000000000000 ≤ k ∧ k < 0x10000000000000000) :
    Means (.integer k h) (some (.integer k h)) := by
  obtain ⟨d, ds, hdigits, lone⟩ := Digit.exists_ofNat k.natAbs
  have value : Digit.toNat (d :: ds) = k.natAbs := by rw [← hdigits, Digit.toNat_ofNat]
  have kept : Number.ofInt? k = some (.integer k h) := dif_pos h
  by_cases negative : k < 0
  · refine ⟨⟨true, d, ds, lone, [], none⟩, ?_, ?_⟩
    · simp [NumberToken.text, NumberToken.unsigned, NumberToken.fractionText, Number.write,
        Number.writeInt, negative, hdigits]
    · have nonzero : Digit.toNat (d :: ds) ≠ 0 := by omega
      have integer : (⟨true, d, ds, lone, [], none⟩ : NumberToken).integer? = some k := by
        simp only [NumberToken.integer?, Option.isNone_none, and_self, if_true, nonzero, if_false]
        rw [value]
        congr 1
        omega
      rw [NumberToken.number?, integer, Option.bind_some, kept, Option.some_or]
  · refine ⟨⟨false, d, ds, lone, [], none⟩, ?_, ?_⟩
    · simp [NumberToken.text, NumberToken.unsigned, NumberToken.fractionText, Number.write,
        Number.writeInt, negative, hdigits]
    · have integer : (⟨false, d, ds, lone, [], none⟩ : NumberToken).integer? = some k := by
        simp only [NumberToken.integer?, Option.isNone_none, and_self, if_true, Bool.false_eq_true,
          if_false]
        rw [value]
        congr 1
        omega
      rw [NumberToken.number?, integer, Option.bind_some, kept, Option.some_or]

/-! ### Strings -/

theorem exists_control_piece {c : Char} (h : c.toNat < 0x20) :
    ∃ p : Piece, p.text = ['\\', 'u', '0', '0', Nat.digitChar (c.toNat / 16),
      Nat.digitChar (c.toNat % 16)] ∧ p.char? = some c := by
  have all : ∀ code < 0x20,
      (HexDigit.mk (Fin.ofNat 16 (code / 16)) false).char = Nat.digitChar (code / 16) ∧
      (HexDigit.mk (Fin.ofNat 16 (code % 16)) false).char = Nat.digitChar (code % 16) ∧
      (Piece.unit ⟨0, false⟩ ⟨0, false⟩ ⟨Fin.ofNat 16 (code / 16), false⟩
        ⟨Fin.ofNat 16 (code % 16), false⟩).char? = some (Char.ofNat code) := by decide
  obtain ⟨high, low, char⟩ := all c.toNat h
  rw [Char.ofNat_toNat] at char
  exact ⟨_, by rw [Piece.text, high, low]; rfl, char⟩

theorem exists_escape_piece (c : Char) : ∃ p : Piece, p.text = escapeChar c ∧ p.char? = some c := by
  unfold escapeChar
  split_ifs with hquote hbackslash hbackspace hfeed hnewline hreturn htab hcontrol
  · exact ⟨.short .quote, rfl, by rw [hquote]; rfl⟩
  · exact ⟨.short .backslash, rfl, by rw [hbackslash]; rfl⟩
  · exact ⟨.short .backspace, rfl, by rw [hbackspace]; rfl⟩
  · exact ⟨.short .formFeed, rfl, by rw [hfeed]; rfl⟩
  · exact ⟨.short .newline, rfl, by rw [hnewline]; rfl⟩
  · exact ⟨.short .carriageReturn, rfl, by rw [hreturn]; rfl⟩
  · exact ⟨.short .tab, rfl, by rw [htab]; rfl⟩
  · exact exists_control_piece hcontrol
  · exact ⟨.plain c ⟨Nat.not_lt.1 hcontrol, hquote, hbackslash⟩, rfl, rfl⟩

theorem exists_written_pieces (cs : List Char) :
    ∃ pieces : List Piece, pieces.flatMap Piece.text = cs.flatMap escapeChar ∧
      decode? pieces = some cs := by
  induction cs with
  | nil => exact ⟨[], rfl, rfl⟩
  | cons c cs ih =>
    obtain ⟨p, htext, hchar⟩ := exists_escape_piece c
    obtain ⟨pieces, hpieces, decodes⟩ := ih
    exact ⟨p :: pieces, by rw [List.flatMap_cons, List.flatMap_cons, htext, hpieces],
      decode?_cons_of_char? hchar decodes⟩

theorem exists_written_name (s : String) :
    ∃ pieces, (Scalar.string pieces).text = writeString s ∧ decode? pieces = some s.toList := by
  obtain ⟨pieces, htext, decodes⟩ := exists_written_pieces s.toList
  exact ⟨pieces, by rw [Scalar.text, htext]; rfl, decodes⟩

/-! ### Trees -/

/-- Nothing but blanks stands between the tokens, the colons apart. -/
structure Layout.Plain (layout : Layout) : Prop where
  gap : ∀ depth, ∀ c ∈ layout.gap depth, isBlank c
  colon : ∃ before after : Blank, layout.colon = before.chars ++ ':' :: after.chars

theorem Layout.plain_compact : Layout.compact.Plain where
  gap := by simp [Layout.compact]
  colon := ⟨.none, .none, rfl⟩

theorem Layout.plain_indented : Layout.indented.Plain where
  gap depth := by
    have spaces : ∀ c ∈ List.replicate (2 * depth) ' ', isBlank c := by
      intro c hc
      rw [List.eq_of_mem_replicate hc]
      rfl
    exact List.forall_mem_cons.2 ⟨rfl, spaces⟩
  colon := ⟨.none, ⟨[' '], by simp [isBlank]⟩, rfl⟩

section Written

variable {layout : Layout} (plain : layout.Plain) {number? : Number → Option Number}

def Derived (layout : Layout) (number? : Number → Option Number) (r : Raw) : Prop :=
  ∀ depth (before after : Blank), ∃ e : Element,
    e.text = before.chars ++ r.write layout depth ++ after.chars ∧ e.depth = r.depth ∧
      e.tree? = r.remake? number?

theorem derived_scalar {r : Raw} (value : Scalar)
    (htext : ∀ depth, value.text = r.write layout depth) (hdepth : r.depth = 0) (htree : value.tree? = r.remake? number?) :
    Derived layout number? r := by
  intro depth before after
  refine ⟨.scalar before value after, ?_, hdepth.symm, htree⟩
  rw [Element.text_scalar, htext depth]

include plain

def closing {α : Type} (depth : Nat) : List α → Blank
  | [] => ⟨layout.gap depth, plain.gap depth⟩
  | _ => .none

theorem exists_written_item {item : Raw} (h : Derived layout number? item) (depth : Nat)
    (after : Blank) : ∃ e : Element,
      (∀ rest, e.front ++ (e.after.chars ++ rest) = layout.gap (depth + 1) ++
        item.write layout (depth + 1) ++ (after.chars ++ rest)) ∧
      e.depth = item.depth ∧ e.tree? = item.remake? number? := by
  obtain ⟨e, htext, hdepth, htree⟩ := h (depth + 1) ⟨layout.gap (depth + 1), plain.gap _⟩ after
  refine ⟨e, fun rest => ?_, hdepth, htree⟩
  rw [← List.append_assoc, ← e.text_eq, htext, List.append_assoc]

theorem exists_written_items (items : List Raw)
    (each : ∀ item ∈ items, Derived layout number? item) (depth : Nat) : ∃ es : List Element,
      (∀ rest, Raw.writeItems layout depth items ++ rest =
        (closing plain depth items).chars ++ Element.laterItems es rest) ∧
      es.map Element.depth = items.map Raw.depth ∧
      es.map Element.tree? = items.map (Raw.remake? number?) := by
  induction items with
  | nil => exact ⟨[], by simp [Raw.writeItems, closing, Element.laterItems], rfl, rfl⟩
  | cons item items ih =>
    obtain ⟨es, htext, hdepth, htree⟩ := ih fun item h => each item (by simp [h])
    obtain ⟨e, etext, edepth, etree⟩ :=
      exists_written_item plain (each item (by simp)) depth (closing plain depth items)
    refine ⟨e :: es, fun rest => ?_, ?_, ?_⟩
    · rw [Element.laterItems_cons, etext, ← htext]
      simp [Raw.writeItems, closing, Blank.none]
    · rw [List.map_cons, List.map_cons, edepth, hdepth]
    · rw [List.map_cons, List.map_cons, etree, htree]

theorem derived_array {items : List Raw} (each : ∀ item ∈ items, Derived layout number? item) :
    Derived layout number? (.array items) := by
  intro depth before after
  cases items with
  | nil => exact ⟨.array before .none [] after, by
      simp [Element.text_array, Element.joined, Blank.none, Raw.write], by
      simp [Element.depth_array, Raw.depth_array], by
      simp [Element.tree?_array, Raw.remake?_array]⟩
  | cons item items =>
    obtain ⟨es, htext, hdepth, htree⟩ :=
      exists_written_items plain items (fun item h => each item (by simp [h])) depth
    obtain ⟨e, etext, edepth, etree⟩ :=
      exists_written_item plain (each item (by simp)) depth (closing plain depth items)
    refine ⟨.array before .none (e :: es) after, ?_, ?_, ?_⟩
    · rw [Element.text_array, List.append_assoc, Element.joined_items, etext, ← htext]
      simp [Raw.write, Blank.none]
    · rw [Element.depth_array, Raw.depth_array, List.map_cons, List.map_cons, edepth, hdepth]
    · rw [Element.tree?_array, Raw.remake?_array, List.map_cons, List.map_cons, etree, htree]

theorem exists_written_member (name : String) {value : Raw} (h : Derived layout number? value)
    (depth : Nat) (after : Blank) : ∃ m : Label × Element,
      (∀ rest, m.1.before.chars ++ Element.fromName m.1 (m.2.front ++ (m.2.after.chars ++ rest)) =
        layout.gap (depth + 1) ++ writeString name ++ layout.colon ++
          value.write layout (depth + 1) ++ (after.chars ++ rest)) ∧
      m.2.depth = value.depth ∧
      Element.member? (m.1, m.2.tree?) = (value.remake? number?).map (Prod.mk name) := by
  obtain ⟨pieces, hname, decodes⟩ := exists_written_name name
  obtain ⟨beforeColon, afterColon, hcolon⟩ := plain.colon
  obtain ⟨e, htext, hdepth, htree⟩ := h (depth + 1) afterColon after
  refine ⟨(⟨⟨layout.gap (depth + 1), plain.gap _⟩, pieces, beforeColon⟩, e), fun rest => ?_,
    hdepth, ?_⟩
  · rw [← List.append_assoc e.front, ← e.text_eq, htext, hcolon, ← hname]
    simp [Element.fromName, Scalar.text]
  · rw [Element.member?, decodes, htree, Option.bind_some, String.ofList_toList]

theorem exists_written_members (members : List (String × Raw))
    (each : ∀ m ∈ members, Derived layout number? m.2) (depth : Nat) :
    ∃ ms : List (Label × Element),
      (∀ rest, Raw.writeMembers layout depth members ++ rest =
        (closing plain depth members).chars ++ Element.laterMembers ms rest) ∧
      ms.map (fun m => m.2.depth) = members.map (fun m => m.2.depth) ∧
      ms.map (fun m => Element.member? (m.1, m.2.tree?)) =
        members.map fun m => (m.2.remake? number?).map (Prod.mk m.1) := by
  induction members with
  | nil => exact ⟨[], by simp [Raw.writeMembers, closing, Element.laterMembers], rfl, rfl⟩
  | cons member members ih =>
    obtain ⟨ms, htext, hdepth, htree⟩ := ih fun member h => each member (by simp [h])
    obtain ⟨m, mtext, mdepth, mtree⟩ := exists_written_member plain member.1
      (each member (by simp)) depth (closing plain depth members)
    refine ⟨m :: ms, fun rest => ?_, ?_, ?_⟩
    · rw [Element.laterMembers_cons, mtext, ← htext]
      simp [Raw.writeMembers, closing, Blank.none]
    · rw [List.map_cons, List.map_cons, mdepth, hdepth]
    · rw [List.map_cons, List.map_cons, mtree, htree]

theorem derived_object {members : List (String × Raw)}
    (each : ∀ m ∈ members, Derived layout number? m.2) :
    Derived layout number? (.object members) := by
  intro depth before after
  cases members with
  | nil => exact ⟨.object before .none [] after, by
      simp [Element.text_object, Element.joined, Blank.none, Raw.write], by
      simp [Element.depth_object, Raw.depth_object], by
      simp [Element.tree?_object, Raw.remake?_object]⟩
  | cons member members =>
    obtain ⟨ms, htext, hdepth, htree⟩ :=
      exists_written_members plain members (fun member h => each member (by simp [h])) depth
    obtain ⟨m, mtext, mdepth, mtree⟩ := exists_written_member plain member.1
      (each member (by simp)) depth (closing plain depth members)
    refine ⟨.object before .none (m :: ms) after, ?_, ?_, ?_⟩
    · rw [Element.text_object, List.append_assoc, Element.joined_members, mtext, ← htext]
      simp [Raw.write, Blank.none]
    · rw [Element.depth_object, Raw.depth_object, List.map_cons, List.map_cons, mdepth, hdepth]
    · rw [Element.tree?_object, Raw.remake?_object, List.map_cons, List.map_cons, mtree, htree]

/-- What is written in a plain layout is derived, and its derivation has the tree that is made
again from what the texts of its numbers mean. -/
theorem derived_write (r : Raw) (means : ∀ n ∈ r.numbers, Means n (number? n)) :
    Derived layout number? r := by
  induction r using Raw.induction with
  | null => exact derived_scalar .null (fun _ => rfl) rfl rfl
  | bool b => exact derived_scalar (.bool b) (fun _ => by cases b <;> rfl) rfl rfl
  | number n =>
    obtain ⟨t, htext, meant⟩ := means n (by simp [Raw.numbers])
    exact derived_scalar (.number t) (fun _ => htext) rfl (by rw [Scalar.tree?, meant, Raw.remake?])
  | string s =>
    obtain ⟨pieces, htext, decodes⟩ := exists_written_name s
    refine derived_scalar (.string pieces) (fun _ => by rw [htext, Raw.write]) rfl ?_
    rw [Scalar.tree?, decodes, Option.map_some, String.ofList_toList, Raw.remake?]
  | array items ih =>
    rw [Raw.numbers_array] at means
    exact derived_array plain fun item h =>
      ih item h fun n hn => means n (List.mem_flatMap.2 ⟨item, h, hn⟩)
  | object members ih =>
    rw [Raw.numbers_object] at means
    exact derived_object plain fun m h =>
      ih m h fun n hn => means n (List.mem_flatMap.2 ⟨m, h, hn⟩)

theorem exists_element_write (j : Json) (integers : ∀ n ∈ j.raw.numbers, n.isInteger) :
    ∃ e : Element, e.text = j.write layout ∧ e.depth = j.raw.depth ∧ e.tree? = some j := by
  have means : ∀ n ∈ j.raw.numbers, Means n (some n) := by
    intro n hn
    cases n with
    | integer k h => exact means_integer k h
    | float x => exact absurd (integers _ hn) (by simp [Number.isInteger])
  obtain ⟨e, htext, hdepth, htree⟩ := derived_write plain j.raw means 0 .none .none
  refine ⟨e, ?_, hdepth, by rw [htree, Raw.remake?_eq_some j.raw j.ordered fun _ _ => rfl]⟩
  rw [htext, Blank.none, List.append_nil]
  rfl

end Written

end Json

end Untyped
