import Mathlib
import Untyped.Proofs.Text.Bytes

/-! The order of texts by their characters is the order of their bytes. -/
namespace Untyped.Text

/-- Below the bound a greater number has the greater bytes, whatever follows them. -/
def Ascending (f : Nat → List UInt8) (bound : Nat) : Prop :=
  ∀ m n, m < n → n < bound → ∀ x y, f m ++ x < f n ++ y

theorem cons_ofNat_lt {m n : Nat} (h : m < n) (byte : n < 256) (x y : List UInt8) :
    UInt8.ofNat m :: x < UInt8.ofNat n :: y := by
  refine List.cons_lt_cons_iff.2 (.inl ?_)
  rw [UInt8.lt_iff_toNat_lt, UInt8.toNat_ofNat', UInt8.toNat_ofNat']
  omega

theorem ascending_leading (bound base : Nat) (fits : bound + base ≤ 256) :
    Ascending (fun n => [UInt8.ofNat (n % bound + base)]) bound := by
  intro m n less below x y
  dsimp only
  rw [Nat.mod_eq_of_lt below, Nat.mod_eq_of_lt (less.trans below)]
  exact cons_ofNat_lt (by omega) (by omega) x y

theorem ascending_trailing {f : Nat → List UInt8} {bound : Nat} (h : Ascending f bound) :
    Ascending (fun n => f (n / 64) ++ [UInt8.ofNat (n % 64 + 128)]) (bound * 64) := by
  intro m n less below x y
  dsimp only
  rw [List.append_assoc, List.append_assoc]
  obtain front | ⟨same, last⟩ : m / 64 < n / 64 ∨ (m / 64 = n / 64 ∧ m % 64 < n % 64) := by omega
  · exact h _ _ front (by omega) _ _
  · rw [same]
    exact List.append_left_lt (cons_ofNat_lt (by omega) (by omega) x y)

theorem utf8EncodeChar_append_lt {c d : Char} (h : c < d) (x y : List UInt8) :
    String.utf8EncodeChar c ++ x < String.utf8EncodeChar d ++ y := by
  have less : c.val.toNat < d.val.toNat := h
  have bound : d.val.toNat < 0x110000 := by
    have valid := d.valid
    simp only [UInt32.isValidChar, Nat.isValidChar] at valid
    omega
  have two := ascending_trailing (ascending_leading 32 192 (by decide))
  have three := ascending_trailing
    (ascending_trailing (ascending_leading 16 224 (by decide)))
  have four := ascending_trailing (ascending_trailing
    (ascending_trailing (ascending_leading 8 240 (by decide))))
  simp only [Nat.div_div_eq_div_mul] at three four
  unfold String.utf8EncodeChar
  dsimp only
  generalize c.val.toNat = m at less ⊢
  generalize d.val.toNat = n at less bound ⊢
  -- encodings of the same length compare by their digits, others by their first bytes
  split_ifs
  · exact cons_ofNat_lt less (by omega) x y
  · exact cons_ofNat_lt (by omega) (by omega) _ _
  · exact cons_ofNat_lt (by omega) (by omega) _ _
  · exact cons_ofNat_lt (by omega) (by omega) _ _
  · omega
  · exact two m n less (by omega) x y
  · exact cons_ofNat_lt (by omega) (by omega) _ _
  · exact cons_ofNat_lt (by omega) (by omega) _ _
  · omega
  · omega
  · exact three m n less (by omega) x y
  · exact cons_ofNat_lt (by omega) (by omega) _ _
  · omega
  · omega
  · omega
  · exact four m n less (by omega) x y

/-- The order of texts by characters is that of their bytes. -/
theorem bytes_lt_of_lt {a b : List Char} (h : a < b) : bytes a < bytes b := by
  induction a generalizing b with
  | nil =>
    cases b with
    | nil => exact absurd h (List.lt_irrefl [])
    | cons d b =>
      obtain ⟨byte, rest, hd⟩ := List.exists_cons_of_ne_nil (String.utf8EncodeChar_ne_nil (c := d))
      rw [bytes_cons, hd, List.cons_append]
      exact List.nil_lt_cons _ _
  | cons c a ih =>
    cases b with
    | nil => exact absurd h (List.not_lt_nil _)
    | cons d b =>
      rw [bytes_cons, bytes_cons]
      obtain less | ⟨rfl, later⟩ := List.cons_lt_cons_iff.1 h
      · exact utf8EncodeChar_append_lt less _ _
      · exact List.append_left_lt (ih later)

end Untyped.Text
