/-!
Decimal digits: their characters, the digits of a natural number, and the number that a run of
digits denotes.
-/
namespace Untyped

abbrev Digit := Fin 10

namespace Digit

def zero : Digit := 0

def toChar (d : Digit) : Char := Char.ofNat ('0'.toNat + d.val)

def ofChar? (c : Char) : Option Digit :=
  if h : '0'.toNat ≤ c.toNat ∧ c.toNat ≤ '9'.toNat then
    some ⟨c.toNat - '0'.toNat, by
      have hz : '0'.toNat = 48 := rfl
      have hn : '9'.toNat = 57 := rfl
      omega⟩
  else none

theorem ofChar?_toChar (d : Digit) : ofChar? d.toChar = some d := by
  revert d
  decide

def chars (ds : List Digit) : List Char := ds.map toChar

/-- The number that the digits denote after those of `acc`. -/
def append (acc : Nat) (ds : List Digit) : Nat := ds.foldl (fun n d => n * 10 + d.val) acc

def toNat (ds : List Digit) : Nat := append 0 ds

/-- The digits of a number, without leading zeros; zero has the one digit `0`. -/
def ofNat (n : Nat) : List Digit :=
  if n < 10 then [Fin.ofNat 10 n] else ofNat (n / 10) ++ [Fin.ofNat 10 n]
termination_by n

def text (n : Nat) : String := String.ofList (chars (ofNat n))

theorem append_append (acc : Nat) (ds es : List Digit) :
    append acc (ds ++ es) = append (append acc ds) es := List.foldl_append

theorem toNat_ofNat (n : Nat) : toNat (ofNat n) = n := by
  induction n using Nat.strongRecOn with
  | ind n ih =>
    rw [ofNat]
    split
    next h => simp [toNat, append, Fin.ofNat, Nat.mod_eq_of_lt h]
    next h =>
      have hq := ih (n / 10) (by omega)
      simp only [toNat] at hq
      rw [toNat, append_append, hq]
      simp only [append, List.foldl_cons, List.foldl_nil, Fin.ofNat]
      omega

theorem ofNat_ne_nil (n : Nat) : ofNat n ≠ [] := by
  rw [ofNat]
  split <;> simp

theorem chars_append (ds es : List Digit) : chars (ds ++ es) = chars ds ++ chars es :=
  List.map_append

theorem chars_ofNat (n : Nat) : chars (ofNat n) = Nat.toDigits 10 n := by
  have char (d : Digit) : d.toChar = Nat.digitChar d.val := by
    revert d
    decide
  induction n using Nat.strongRecOn with
  | ind n ih =>
    rw [ofNat, Nat.toDigits_eq_if (by omega)]
    split
    next lone => simp [chars, char, Fin.ofNat, Nat.mod_eq_of_lt lone]
    next => rw [chars_append, ih (n / 10) (by omega)]; simp [chars, char, Fin.ofNat]

theorem text_eq_toString (n : Nat) : text n = toString n := by
  rw [text, chars_ofNat, ← Nat.repr_eq_ofList_toDigits]
  rfl

end Digit

end Untyped
