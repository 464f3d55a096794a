import Mathlib
import Untyped.Text.Position

/-! The bytes of a text, and texts whose bytes agree up to a place. Such a place may lie inside a
character; up to there the texts still have the same characters before the one it lies in. -/
namespace Untyped.Text

def bytes (text : List Char) : List UInt8 := text.flatMap String.utf8EncodeChar

theorem bytes_cons (c : Char) (rest : List Char) :
    bytes (c :: rest) = String.utf8EncodeChar c ++ bytes rest := List.flatMap_cons

theorem bytes_append (a b : List Char) : bytes (a ++ b) = bytes a ++ bytes b := List.flatMap_append

theorem length_bytes (text : List Char) : (bytes text).length = byteLength text := by
  induction text with
  | nil => rfl
  | cons c rest ih =>
    rw [bytes_cons, List.length_append, String.length_utf8EncodeChar, ih, byteLength]

theorem byteLength_append (a b : List Char) :
    byteLength (a ++ b) = byteLength a + byteLength b := by
  rw [← length_bytes, bytes_append, List.length_append, length_bytes, length_bytes]

theorem byteLength_pos (c : Char) (rest : List Char) : 0 < byteLength (c :: rest) := by
  have := c.utf8Size_pos
  rw [byteLength]
  omega

theorem length_le_byteLength (text : List Char) : text.length ≤ byteLength text := by
  induction text with
  | nil => exact Nat.le_refl 0
  | cons c rest ih =>
    have := c.utf8Size_pos
    rw [byteLength, List.length_cons]
    omega

def utf8 (s : String) : List UInt8 := s.toUTF8.data.toList

theorem bytes_toList (s : String) : bytes s.toList = utf8 s := by
  have h : s.toUTF8 = (bytes s.toList).toByteArray := by
    rw [String.toUTF8_eq_toByteArray, ← String.ofList_toList (s := s), String.toByteArray_ofList]
    simp [bytes, List.utf8Encode]
  rw [utf8, h]
  simp

/-! ### Single characters -/

theorem utf8EncodeChar_cases (c : Char) :
    (c.toNat < 128 ∧ String.utf8EncodeChar c = [UInt8.ofNat c.toNat]) ∨
      (128 ≤ c.toNat ∧ ∀ b ∈ String.utf8EncodeChar c, 128 ≤ b.toNat) := by
  have value : c.val.toNat = c.toNat := rfl
  by_cases h : c.toNat < 128
  · left
    refine ⟨h, ?_⟩
    rw [String.utf8EncodeChar, if_pos (by omega), value]
  · right
    refine ⟨by omega, ?_⟩
    intro b hb
    rw [String.utf8EncodeChar, if_neg (by omega)] at hb
    split_ifs at hb <;> simp only [List.mem_cons, List.not_mem_nil, or_false] at hb
    · obtain rfl | rfl := hb <;> simp only [UInt8.toNat_ofNat'] <;> omega
    · obtain rfl | rfl | rfl := hb <;> simp only [UInt8.toNat_ofNat'] <;> omega
    · obtain rfl | rfl | rfl | rfl := hb <;> simp only [UInt8.toNat_ofNat'] <;> omega

theorem le_toNat_of_mem_bytes {bound : Nat} (single : bound ≤ 128) {text : List Char}
    (h : ∀ c ∈ text, bound ≤ c.toNat) : ∀ b ∈ bytes text, bound ≤ b.toNat := by
  intro b mem
  obtain ⟨c, mem, encoded⟩ := List.mem_flatMap.1 mem
  obtain ⟨small, one⟩ | ⟨_, above⟩ := utf8EncodeChar_cases c
  · rw [one, List.mem_singleton] at encoded
    rw [encoded, UInt8.toNat_ofNat', Nat.mod_eq_of_lt (by omega)]
    exact h c mem
  · exact single.trans (above b encoded)

theorem char_eq_of_bytes_eq {c d : Char} {rest more : List UInt8}
    (h : String.utf8EncodeChar c ++ rest = String.utf8EncodeChar d ++ more) : c = d := by
  have decode (c : Char) (rest : List UInt8) :
      ((String.utf8EncodeChar c ++ rest).toByteArray).utf8DecodeChar? 0 = some c := by
    rw [List.toByteArray_append, ByteArray.utf8DecodeChar?_utf8EncodeChar_append]
  exact Option.some.inj (by rw [← decode c rest, h, decode d more])

def Alike (c d : Char) : Prop := c = d ∨ (128 ≤ c.toNat ∧ 128 ≤ d.toNat)

theorem Alike.refl (c : Char) : Alike c c := .inl rfl

theorem Alike.iff {c d : Char} (h : Alike c d) {p : Char → Prop}
    (single : ∀ k, p k → k.toNat < 128) : p c ↔ p d := by
  obtain rfl | ⟨hc, hd⟩ := h
  · rfl
  · exact ⟨fun h => absurd (single c h) (by omega), fun h => absurd (single d h) (by omega)⟩

theorem Alike.eq_iff {c d k : Char} (h : Alike c d) (single : k.toNat < 128) : c = k ↔ d = k :=
  h.iff (p := (· = k)) fun _ same => same ▸ single

/-- Characters whose bytes start alike are alike. -/
theorem alike_of_bytes_eq {c d : Char} {byte : UInt8} {rest more later past : List UInt8}
    (hc : String.utf8EncodeChar c ++ rest = byte :: later)
    (hd : String.utf8EncodeChar d ++ more = byte :: past) : Alike c d := by
  have head {c : Char} {rest later : List UInt8}
      (h : String.utf8EncodeChar c ++ rest = byte :: later) : byte ∈ String.utf8EncodeChar c := by
    cases hc : String.utf8EncodeChar c with
    | nil => exact absurd hc String.utf8EncodeChar_ne_nil
    | cons first tail =>
      rw [hc, List.cons_append] at h
      rw [(List.cons.inj h).1]
      exact List.mem_cons_self
  have byte_c := head hc
  have byte_d := head hd
  obtain ⟨small, one⟩ | ⟨large, all⟩ := utf8EncodeChar_cases c
  · rw [one, List.mem_singleton] at byte_c
    obtain ⟨small', one'⟩ | ⟨_, all'⟩ := utf8EncodeChar_cases d
    · rw [one', byte_c, List.mem_singleton] at byte_d
      have same := congrArg UInt8.toNat byte_d
      rw [UInt8.toNat_ofNat', UInt8.toNat_ofNat'] at same
      exact .inl (Char.toNat_inj.1 (by omega))
    · have := all' byte byte_d
      rw [byte_c, UInt8.toNat_ofNat'] at this
      omega
  · obtain ⟨small', one'⟩ | ⟨large', _⟩ := utf8EncodeChar_cases d
    · have := all byte byte_c
      rw [one', List.mem_singleton] at byte_d
      rw [byte_d, UInt8.toNat_ofNat'] at this
      omega
    · exact .inr ⟨large, large'⟩

/-! ### Texts that agree up to a place -/

/-- The bytes of the two texts are the same up to where the given ones are left. -/
def Agree (x y : List UInt8) (a b : List Char) : Prop :=
  ∃ shared, bytes a = shared ++ x ∧ bytes b = shared ++ y

namespace Agree

variable {x y : List UInt8} {a b : List Char} {c : Char}

theorem symm (h : Agree x y a b) : Agree y x b a := by
  obtain ⟨shared, ha, hb⟩ := h
  exact ⟨shared, hb, ha⟩

theorem length_eq (h : Agree x y a b) : byteLength a + y.length = byteLength b + x.length := by
  obtain ⟨shared, ha, hb⟩ := h
  rw [← length_bytes, ← length_bytes, ha, hb, List.length_append, List.length_append]
  omega

theorem cons (h : Agree x y (c :: a) b) (before : x.length ≤ byteLength a) :
    ∃ b', b = c :: b' ∧ Agree x y a b' := by
  obtain ⟨shared, ha, hb⟩ := h
  rw [bytes_cons] at ha
  rw [← length_bytes] at before
  obtain ⟨middle, rfl, hrest⟩ : ∃ middle, shared = String.utf8EncodeChar c ++ middle ∧
      bytes a = middle ++ x := by
    obtain ⟨middle, hs, hr⟩ | ⟨middle, hs, hr⟩ := List.append_eq_append_iff.1 ha
    · exact ⟨middle, hs, hr⟩
    · have := congrArg List.length hr
      rw [List.length_append] at this
      have none : middle = [] := List.eq_nil_of_length_eq_zero (by omega)
      rw [none, List.append_nil] at hs
      exact ⟨[], by rw [hs, List.append_nil], by rw [hr, none]; rfl⟩
  cases b with
  | nil =>
    have empty := List.append_eq_nil_iff.1 (List.append_eq_nil_iff.1 hb.symm).1
    exact absurd empty.1 String.utf8EncodeChar_ne_nil
  | cons d b =>
    rw [bytes_cons, List.append_assoc] at hb
    obtain rfl := char_eq_of_bytes_eq hb
    exact ⟨b, rfl, middle, hrest, List.append_cancel_left hb⟩

theorem append (cs : List Char) (h : Agree x y (cs ++ a) b) (before : x.length ≤ byteLength a) :
    ∃ b', b = cs ++ b' ∧ Agree x y a b' := by
  induction cs generalizing b with
  | nil => exact ⟨b, rfl, h⟩
  | cons c cs ih =>
    have longer : x.length ≤ byteLength (cs ++ a) := by
      rw [byteLength_append]
      omega
    obtain ⟨middle, rfl, hm⟩ := h.cons longer
    obtain ⟨b', rfl, hb⟩ := ih hm
    exact ⟨b', rfl, hb⟩

theorem first (h : Agree x y (c :: a) b) (before : x.length < byteLength (c :: a)) :
    ∃ d b', b = d :: b' ∧ Alike c d := by
  obtain ⟨shared, ha, hb⟩ := h
  cases shared with
  | nil =>
    have := congrArg List.length ha
    rw [length_bytes, List.nil_append] at this
    omega
  | cons byte shared =>
    cases b with
    | nil => simp [bytes] at hb
    | cons d b => exact ⟨d, b, rfl, alike_of_bytes_eq ha hb⟩

end Agree

/-! ### Positions -/

/-- The place after so many bytes: one line more than there are newlines, and the bytes after the
last newline. -/
def Position.afterBytes (before : List UInt8) : Position :=
  ⟨1 + before.count 10, (before.reverse.takeWhile (· != 10)).length⟩

def Position.next (place : Position) (byte : UInt8) : Position :=
  if byte = 10 then ⟨place.line + 1, 0⟩ else ⟨place.line, place.column + 1⟩

theorem Position.afterBytes_eq_foldl (before : List UInt8) :
    afterBytes before = before.foldl next start := by
  induction before using List.reverseRecOn with
  | nil => rfl
  | append_singleton before byte ih =>
    rw [List.foldl_append, ← ih, List.foldl_cons, List.foldl_nil, next]
    split
    next newline => simp [afterBytes, newline, Nat.add_assoc]
    next other => simp [afterBytes, other]

theorem Position.foldl_next_of_ne {before : List UInt8} (h : ∀ b ∈ before, b ≠ 10)
    (place : Position) :
    before.foldl next place = ⟨place.line, place.column + before.length⟩ := by
  induction before generalizing place with
  | nil => rfl
  | cons b before ih =>
    rw [List.foldl_cons, next, if_neg (h b (by simp)), ih fun b hb => h b (by simp [hb])]
    simp [Nat.add_comm, Nat.add_left_comm]

theorem Position.foldl_next_char (place : Position) (c : Char) :
    (String.utf8EncodeChar c).foldl next place =
      if c = '\n' then ⟨place.line + 1, 0⟩ else ⟨place.line, place.column + c.utf8Size⟩ := by
  by_cases newline : c = '\n'
  · rw [if_pos newline, newline]
    rfl
  · rw [if_neg newline, foldl_next_of_ne, String.length_utf8EncodeChar]
    intro b hb same
    obtain ⟨small, one⟩ | ⟨_, all⟩ := utf8EncodeChar_cases c
    · rw [one, List.mem_singleton, same] at hb
      have code := congrArg UInt8.toNat hb
      rw [UInt8.toNat_ofNat', Nat.mod_eq_of_lt (by omega)] at code
      exact newline (Char.toNat_inj.1 code.symm)
    · have := all b hb
      rw [same] at this
      exact absurd this (by decide)

theorem Position.advance_eq_foldl (place : Position) (text : List Char) (n : Nat) :
    place.advance text n = ((bytes text).take n).foldl next place := by
  induction text generalizing place n with
  | nil => simp [advance, bytes]
  | cons c rest ih =>
    cases n with
    | zero => simp [advance]
    | succ n =>
      have size := String.length_utf8EncodeChar c
      rw [advance, bytes_cons, List.take_append]
      case x_2 => omega
      by_cases inside : n + 1 < c.utf8Size
      · have within : (n + 1) - (String.utf8EncodeChar c).length = 0 := by omega
        have large : ∀ b ∈ (String.utf8EncodeChar c).take (n + 1), b ≠ 10 := by
          intro b hb same
          obtain ⟨_, one⟩ | ⟨_, all⟩ := utf8EncodeChar_cases c
          · rw [one, List.length_singleton] at size
            omega
          · have := all b (List.mem_of_mem_take hb)
            rw [same] at this
            exact absurd this (by decide)
        rw [if_pos inside, within, List.take_zero, List.append_nil, foldl_next_of_ne large,
          List.length_take, Nat.min_eq_left (by omega)]
      · rw [if_neg inside, List.take_of_length_le (by omega), List.foldl_append, foldl_next_char,
          size]
        split
        next newline =>
          rw [ih, newline]
          rfl
        next => rw [ih]

theorem Position.line_afterBytes_eq_one_iff (before : List UInt8) :
    (afterBytes before).line = 1 ↔ (10 : UInt8) ∉ before := by
  rw [← List.count_eq_zero]
  simp [afterBytes]

theorem Position.afterBytes_append (before after : List UInt8) :
    afterBytes (before ++ after) =
      let place := afterBytes after
      ⟨place.line + before.count 10, if place.line = 1 then
        place.column + (before.reverse.takeWhile (· != 10)).length else place.column⟩ := by
  have line : (afterBytes (before ++ after)).line = (afterBytes after).line + before.count 10 := by
    simp only [afterBytes, List.count_append]
    omega
  have column : (afterBytes (before ++ after)).column = if (afterBytes after).line = 1 then
      (afterBytes after).column + (before.reverse.takeWhile (· != 10)).length
      else (afterBytes after).column := by
    have last : (10 : UInt8) ∉ after ↔ (after.reverse.takeWhile (· != 10)).length =
        after.reverse.length := by
      rw [(List.takeWhile_sublist _).length_eq, List.takeWhile_eq_self_iff]
      exact ⟨fun h b hb => bne_iff_ne.2 fun same => h (same ▸ List.mem_reverse.1 hb),
        fun h hb => bne_iff_ne.1 (h 10 (List.mem_reverse.2 hb)) rfl⟩
    simp only [Position.line_afterBytes_eq_one_iff, last]
    simp only [afterBytes, List.reverse_append, List.takeWhile_append]
    split
    next whole => rw [List.length_append, whole]
    next => rfl
  exact (Position.mk.injEq ..).mpr ⟨line, column⟩

/-- A place in a text is where its bytes say it is. -/
theorem Position.ofBytes_eq (text : List Char) (n : Nat) :
    ofBytes text n = afterBytes ((bytes text).take n) := by
  rw [ofBytes, advance_eq_foldl, afterBytes_eq_foldl]

end Untyped.Text
