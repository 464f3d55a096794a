import Mathlib
import Untyped.Text.Quoted

/-! A quoted text tells the text: each form tells its character and where it ends, and none starts as
the quoted text ends. -/
namespace Untyped.Text

theorem hexDigits_eq (n : Nat) :
    hexDigits n = (if n < 16 then [] else hexDigits (n / 16)) ++ [Nat.digitChar (n % 16)] := by
  rw [hexDigits, Nat.toDigits_eq_if (by omega)]
  split
  next few => rw [Nat.mod_eq_of_lt few, List.nil_append]
  next => rfl

theorem hexDigits_ne_nil (n : Nat) : hexDigits n ≠ [] := by
  rw [hexDigits_eq]
  simp

theorem digitChar_inj (d e : Fin 16) : Nat.digitChar d = Nat.digitChar e → d = e := by
  revert d e
  decide

theorem hexDigits_injective : Function.Injective hexDigits := by
  intro n
  induction n using Nat.strongRecOn with
  | ind n ih =>
    intro m same
    rw [hexDigits_eq n, hexDigits_eq m, List.append_singleton_inj] at same
    obtain ⟨before, last⟩ := same
    have last : n % 16 = m % 16 := congrArg Fin.val (digitChar_inj
      ⟨n % 16, Nat.mod_lt n (by omega)⟩ ⟨m % 16, Nat.mod_lt m (by omega)⟩ last)
    split at before
    next => 
      split at before
      next => omega
      next => exact absurd before.symm (hexDigits_ne_nil _)
    next =>
      split at before
      next => exact absurd before (hexDigits_ne_nil _)
      next =>
        have := ih (n / 16) (by omega) before
        omega

theorem brace_notMem_hexDigits (n : Nat) : '\x7d' ∉ hexDigits n := by
  have digit (d : Fin 16) : '\x7d' ≠ Nat.digitChar d := by
    revert d
    decide
  induction n using Nat.strongRecOn with
  | ind n ih =>
    have last := digit ⟨n % 16, Nat.mod_lt n (by omega)⟩
    rw [hexDigits_eq]
    split
    next => exact List.not_mem_cons_of_ne_of_not_mem last List.not_mem_nil
    next =>
      rw [List.mem_append, List.mem_singleton]
      exact not_or_intro (ih (n / 16) (by omega)) last

theorem eq_of_append_close_eq {close : Char} {text text' x y : List Char} (h : close ∉ text)
    (h' : close ∉ text') (same : text ++ close :: x = text' ++ close :: y) :
    text = text' ∧ x = y := by
  induction text generalizing text' with
  | nil =>
    cases text' with
    | nil => exact ⟨rfl, (List.cons.inj same).2⟩
    | cons c text' => exact absurd (List.cons.inj same).1 (List.ne_of_not_mem_cons h')
  | cons c text ih =>
    cases text' with
    | nil => exact absurd (List.cons.inj same).1.symm (List.ne_of_not_mem_cons h)
    | cons c' text' =>
      obtain ⟨first, later⟩ := List.cons.inj same
      obtain ⟨others, rest⟩ :=
        ih (List.not_mem_of_not_mem_cons h) (List.not_mem_of_not_mem_cons h') later
      exact ⟨by rw [first, others], rest⟩

def escaped (letter : Char) : Char :=
  if letter = '0' then '\x00'
  else if letter = 't' then '\t'
  else if letter = 'r' then '\r'
  else if letter = 'n' then '\n'
  else letter

/-- A character is shown by a letter behind a backslash, by its number, or by itself. -/
theorem quoteChar_cases (c : Char) :
    (∃ letter, quoteChar c = ['\\', letter] ∧ letter ≠ 'u' ∧ escaped letter = c) ∨
      quoteChar c = '\\' :: 'u' :: '\x7b' :: (hexDigits c.toNat ++ ['\x7d']) ∨
      (quoteChar c = [c] ∧ c ≠ '\\' ∧ c ≠ '"') := by
  unfold quoteChar
  split_ifs with nul tab carriage newline backslash quote hidden
  · exact .inl ⟨'0', rfl, by decide, nul.symm⟩
  · exact .inl ⟨'t', rfl, by decide, tab.symm⟩
  · exact .inl ⟨'r', rfl, by decide, carriage.symm⟩
  · exact .inl ⟨'n', rfl, by decide, newline.symm⟩
  · exact .inl ⟨'\\', rfl, by decide, backslash.symm⟩
  · exact .inl ⟨'"', rfl, by decide, quote.symm⟩
  · exact .inr (.inl rfl)
  · exact .inr (.inr ⟨rfl, backslash, quote⟩)

theorem quoteChar_append_inj {c d : Char} {x y : List Char}
    (same : quoteChar c ++ x = quoteChar d ++ y) : c = d ∧ x = y := by
  obtain ⟨letter, form, short, rfl⟩ | form | ⟨form, plain, _⟩ := quoteChar_cases c
  · obtain ⟨letter', form', _, rfl⟩ | form' | ⟨form', plain', _⟩ := quoteChar_cases d <;>
      rw [form, form'] at same
    · obtain ⟨rfl, rest⟩ := List.cons.inj (List.cons.inj same).2
      exact ⟨rfl, rest⟩
    · exact absurd (List.cons.inj (List.cons.inj same).2).1 short
    · exact absurd (List.cons.inj same).1.symm plain'
  · obtain ⟨letter', form', short', rfl⟩ | form' | ⟨form', plain', _⟩ := quoteChar_cases d <;>
      rw [form, form'] at same
    · exact absurd (List.cons.inj (List.cons.inj same).2).1.symm short'
    · simp only [List.cons_append, List.append_assoc, List.cons.injEq, true_and] at same
      obtain ⟨digits, rest⟩ := eq_of_append_close_eq (brace_notMem_hexDigits _)
        (brace_notMem_hexDigits _) same
      exact ⟨Char.toNat_inj.1 (hexDigits_injective digits), rest⟩
    · exact absurd (List.cons.inj same).1.symm plain'
  · obtain ⟨letter', form', _, rfl⟩ | form' | ⟨form', _, _⟩ := quoteChar_cases d <;>
      rw [form, form'] at same
    · exact absurd (List.cons.inj same).1 plain
    · exact absurd (List.cons.inj same).1 plain
    · exact List.cons.inj same

theorem quoteChar_append_ne (c : Char) (x y : List Char) : quoteChar c ++ x ≠ '"' :: y := by
  intro same
  obtain ⟨letter, form, _, _⟩ | form | ⟨form, _, notQuote⟩ := quoteChar_cases c <;>
    rw [form] at same
  · exact absurd (List.cons.inj same).1 (by decide)
  · exact absurd (List.cons.inj same).1 (by decide)
  · exact notQuote (List.cons.inj same).1

/-- A quoted text tells the text, and where it ends. -/
theorem quote_append_inj {text text' x y : List Char} (same : quote text ++ x = quote text' ++ y) :
    text = text' ∧ x = y := by
  simp only [quote, List.cons_append, List.append_assoc, List.nil_append, List.cons.injEq,
    true_and] at same
  induction text generalizing text' with
  | nil =>
    cases text' with
    | nil => exact ⟨rfl, (List.cons.inj same).2⟩
    | cons d text' =>
      rw [List.flatMap_cons, List.append_assoc] at same
      exact absurd same.symm (quoteChar_append_ne d _ _)
  | cons c text ih =>
    rw [List.flatMap_cons, List.append_assoc] at same
    cases text' with
    | nil => exact absurd same (quoteChar_append_ne c _ _)
    | cons d text' =>
      rw [List.flatMap_cons, List.append_assoc] at same
      obtain ⟨rfl, later⟩ := quoteChar_append_inj same
      obtain ⟨rfl, rest⟩ := ih later
      exact ⟨rfl, rest⟩

end Untyped.Text
