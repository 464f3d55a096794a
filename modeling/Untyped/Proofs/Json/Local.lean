import Mathlib
import Untyped.Proofs.Json.Blanks
import Untyped.Proofs.Json.Strings

/-! Readers whose answer is decided by the bytes up to its place. A text that agrees up to one byte
after what was read is read alike, and one that agrees up to the place of a settled failure fails
alike. Each way of putting readers together keeps this. -/
namespace Untyped.Json
open Text (Agree Alike byteLength byteLength_append byteLength_pos)

/-- Whether no text that goes on in another way is read. A text that ended too early and a number
that is too large are mended by other bytes at or before the place. -/
def Reason.settled : Reason → Bool
  | endInValue => false
  | endInList => false
  | endInObject => false
  | endInString => false
  | numberOutOfRange => false
  | _ => true

variable {α β : Type}

/-- What the reader answers on the text does not depend on the bytes beyond its place. -/
structure Local (f : List Char → Outcome α) (a : List Char) : Prop where
  shrinks : ∀ {v rest}, f a = .ok (v, rest) → byteLength rest ≤ byteLength a
  later : ∀ {e}, f a = .error e → e.reason.settled → e.left < byteLength a
  answers : ∀ {x y b v rest}, Agree x y a b → f a = .ok (v, rest) → x.length < byteLength rest →
    ∃ rest', f b = .ok (v, rest') ∧ Agree x y rest rest'
  fails : ∀ {x y b e}, Agree x y a b → f a = .error e → e.reason.settled → e.left = x.length →
    f b = .error ⟨e.reason, y.length⟩

namespace Local

variable {f : List Char → Outcome α} {a : List Char} {c : Char}

theorem pure (v : α) (a : List Char) : Local (fun t => .ok (v, t)) a where
  shrinks h := by
    cases h
    exact Nat.le_refl _
  later h := by cases h
  answers agree h _ := by
    cases h
    exact ⟨_, rfl, agree⟩
  fails _ h := by cases h

theorem of_error {e : Failure} (h : f a = .error e)
    (later : e.reason.settled → e.left < byteLength a)
    (fails : ∀ {x y b}, Agree x y a b → e.reason.settled → e.left = x.length →
      f b = .error ⟨e.reason, y.length⟩) : Local f a where
  shrinks h' := by
    rw [h] at h'
    cases h'
  later h' settled := by
    rw [h] at h'
    cases h'
    exact later settled
  answers _ h' := by
    rw [h] at h'
    cases h'
  fails agree h' settled place := by
    rw [h] at h'
    cases h'
    exact fails agree settled place

theorem unsettled {e : Failure} (h : f a = .error e) (still : e.reason.settled = false) :
    Local f a :=
  of_error h (fun settled => by rw [still] at settled; cases settled)
    fun _ settled => by rw [still] at settled; cases settled

theorem done {v : α} (h : f a = .ok (v, [])) : Local f a where
  shrinks h' := by
    rw [h] at h'
    cases h'
    exact Nat.zero_le _
  later h' := by
    rw [h] at h'
    cases h'
  answers _ h' before := by
    rw [h] at h'
    cases h'
    exact absurd before (Nat.not_lt_zero _)
  fails _ h' := by
    rw [h] at h'
    cases h'

theorem take {g : List Char → Outcome α} (h : ∀ t, f (c :: t) = g t) (later : Local g a) :
    Local f (c :: a) where
  shrinks h' := by
    rw [h] at h'
    have := later.shrinks h'
    rw [byteLength]
    omega
  later h' settled := by
    rw [h] at h'
    have := later.later h' settled
    rw [byteLength]
    omega
  answers agree h' before := by
    rw [h] at h'
    have := later.shrinks h'
    obtain ⟨b, rfl, shared⟩ := agree.cons (by omega)
    rw [h]
    exact later.answers shared h' before
  fails agree h' settled place := by
    rw [h] at h'
    have := later.later h' settled
    obtain ⟨b, rfl, shared⟩ := agree.cons (by omega)
    rw [h]
    exact later.fails shared h' settled place

theorem refuse (r : Reason) (h : ∀ d t, Alike c d → f (d :: t) = .error (.after 1 r (d :: t))) :
    Local f (c :: a) := by
  have positive := byteLength_pos c a
  refine of_error (h c a (.refl c)) (fun _ => ?_) fun agree settled place => ?_
  · simp only [Failure.after]
    omega
  · have length := agree.length_eq
    simp only [Failure.after] at place
    -- one byte is shared, so the other text has an alike character there
    obtain ⟨d, b, rfl, alike⟩ := agree.first (by omega)
    rw [h d b alike, Failure.after]
    congr
    omega

theorem alike {g : List Char → Outcome α} (h : ∀ d t, Alike c d → f (d :: t) = g (d :: t))
    (later : Local g (c :: a)) : Local f (c :: a) where
  shrinks h' := by
    rw [h c a (.refl c)] at h'
    exact later.shrinks h'
  later h' := by
    rw [h c a (.refl c)] at h'
    exact later.later h'
  answers agree h' before := by
    rw [h c a (.refl c)] at h'
    have := later.shrinks h'
    obtain ⟨d, b, rfl, alike⟩ := agree.first (by omega)
    rw [h d b alike]
    exact later.answers agree h' before
  fails agree h' settled place := by
    rw [h c a (.refl c)] at h'
    have := later.later h' settled
    obtain ⟨d, b, rfl, alike⟩ := agree.first (by omega)
    rw [h d b alike]
    exact later.fails agree h' settled place

theorem at_end {g : List Char → Outcome α} (h : f [] = g []) (later : Local g []) :
    Local f [] where
  shrinks h' := by
    rw [h] at h'
    exact later.shrinks h'
  later h' := by
    rw [h] at h'
    exact later.later h'
  answers _ h' before := by
    rw [h] at h'
    have := later.shrinks h'
    exact absurd (Nat.lt_of_lt_of_le before this) (Nat.not_lt_zero _)
  fails _ h' settled := by
    rw [h] at h'
    exact absurd (later.later h' settled) (Nat.not_lt_zero _)

/-- What is read next starts behind the place of what was read, or fails behind it. -/
theorem follow {g : α → List Char → Outcome β} (first : Local f a)
    (second : ∀ v rest, f a = .ok (v, rest) → Local (g v) rest) :
    Local (fun t => Json.follow (f t) g) a where
  shrinks h := by
    obtain ⟨v, middle, hv, hw⟩ := follow_eq_ok.1 h
    exact Nat.le_trans ((second v middle hv).shrinks hw) (first.shrinks hv)
  later h settled := by
    obtain h | ⟨v, middle, hv, hw⟩ := follow_eq_error.1 h
    · exact first.later h settled
    · exact Nat.lt_of_lt_of_le ((second v middle hv).later hw settled) (first.shrinks hv)
  answers agree h before := by
    obtain ⟨v, middle, hv, hw⟩ := follow_eq_ok.1 h
    have := (second v middle hv).shrinks hw
    obtain ⟨middle', hb, agree⟩ := first.answers agree hv (by omega)
    obtain ⟨rest, hrest, agree⟩ := (second v middle hv).answers agree hw before
    exact ⟨rest, by rw [hb, follow_ok, hrest], agree⟩
  fails agree h settled place := by
    obtain h | ⟨v, middle, hv, hw⟩ := follow_eq_error.1 h
    · rw [first.fails agree h settled place, follow_error]
    · -- the failure lies behind the middle, which leaves the first reader its one byte
      have := (second v middle hv).later hw settled
      obtain ⟨middle', hb, agree⟩ := first.answers agree hv (by omega)
      rw [hb, follow_ok]
      exact (second v middle hv).fails agree hw settled place

end Local

namespace Local

variable {f : List Char → Outcome α} {a : List Char}

theorem blank (h : ∀ t, f (skipBlank t) = f t) (later : Local f (skipBlank a)) : Local f a where
  shrinks h' := by
    rw [← h] at h'
    exact Nat.le_trans (later.shrinks h') (byteLength_skipBlank a)
  later h' settled := by
    rw [← h] at h'
    exact Nat.lt_of_lt_of_le (later.later h' settled) (byteLength_skipBlank a)
  answers agree h' before := by
    rw [← h] at h' ⊢
    exact later.answers (agree_skipBlank agree (Nat.lt_of_lt_of_le before (later.shrinks h'))) h'
      before
  fails agree h' settled place := by
    rw [← h] at h' ⊢
    exact later.fails (agree_skipBlank agree (place ▸ later.later h' settled)) h' settled place

theorem refuse_next {k : Char} (ascii : k.toNat < 128) {r : Reason}
    (skips : ∀ t, f (skipBlank t) = f t) (later : Local f (skipBlank a)) :
    Local (fun t => if (skipBlank t).head? = some k then .error (.after 1 r (skipBlank t))
      else f t) a := by
  refine .blank (fun t => by rw [skipBlank_skipBlank, skips]) ?_
  cases hskip : skipBlank a with
  | nil =>
    rw [hskip] at later
    exact .at_end (if_neg (by simp [skipBlank])) later
  | cons c rest =>
    have notBlank := isBlank_of_skipBlank hskip
    rw [hskip] at later
    by_cases hc : c = k
    · refine .refuse r fun d t alike => ?_
      rw [skipBlank_cons (not_blank_of_alike alike notBlank)]
      exact if_pos (congrArg some ((alike.eq_iff ascii).1 hc))
    · refine .alike (fun d t alike => ?_) later
      rw [skipBlank_cons (not_blank_of_alike alike notBlank)]
      exact if_neg fun hd => hc ((alike.eq_iff ascii).2 (Option.some.inj hd))

end Local

theorem readHex_error {text : List Char} {e : Failure} (h : outcome (readHex text) = .error e) :
    e = if byteLength text < 4 then .atEnd .endInString else .after 4 .invalidEscape text := by
  unfold readHex at h
  split at h
  next a b c d rest =>
    split at h
    next => cases h
    next =>
      cases h
      have := a.utf8Size_pos
      have := b.utf8Size_pos
      have := c.utf8Size_pos
      have := d.utf8Size_pos
      rw [if_neg]
      simp only [byteLength]
      omega
  next =>
    split at h
    next few => cases h; rw [if_pos few]
    next few => cases h; rw [if_neg few]

theorem exists_hex_of_agree {x y : List UInt8} {a b rest : List Char} {n : Nat}
    (agree : Agree x y a b) (h : outcome (readHex a) = .ok (n, rest))
    (before : x.length ≤ byteLength rest) :
    ∃ rest', outcome (readHex b) = .ok (n, rest') ∧ Agree x y rest rest' := by
  obtain ⟨p, q, r, s, rfl, rfl⟩ := exists_hexDigits h
  obtain ⟨b, rfl, shared⟩ := Agree.append [p.char, q.char, r.char, s.char] agree before
  exact ⟨b, outcome_readHex p q r s b, shared⟩

theorem byteLength_lt_of_readHex {a rest : List Char} {n : Nat}
    (h : outcome (readHex a) = .ok (n, rest)) : byteLength rest < byteLength a := by
  obtain ⟨p, q, r, s, rfl, _⟩ := exists_hexDigits h
  have first := p.char.utf8Size_pos
  simp only [byteLength]
  omega

/-- What is wrong with four digits is known when the fourth byte is there. -/
theorem readHex_fails {x y : List UInt8} {a b : List Char} {e : Failure} (agree : Agree x y a b)
    (h : outcome (readHex a) = .error e) (settled : e.reason.settled)
    (place : e.left = x.length) : outcome (readHex b) = .error ⟨e.reason, y.length⟩ := by
  have length := agree.length_eq
  obtain rfl := readHex_error h
  by_cases few : byteLength a < 4
  · rw [if_pos few] at settled
    cases settled
  · rw [if_neg few] at h place
    rw [if_neg few]
    simp only [Failure.after] at place
    cases hb : outcome (readHex b) with
    | ok p =>
      -- the other text has four digits there, so this one would have the same
      have shorter := byteLength_lt_of_readHex hb
      obtain ⟨p', q, r, s, hchars, _⟩ := exists_hexDigits hb
      have size := congrArg byteLength hchars
      have ascii (d : HexDigit) : d.char.utf8Size = 1 := by
        obtain ⟨value, upper⟩ := d
        revert value upper
        decide
      simp only [byteLength, ascii] at size
      obtain ⟨rest, same, _⟩ := exists_hex_of_agree agree.symm hb (by omega)
      rw [h] at same
      cases same
    | error e' =>
      obtain rfl := readHex_error hb
      rw [if_neg (by omega)]
      simp only [Failure.after]
      congr 2
      omega

def accepted (bad : Nat → Bool) (text : List Char) : Outcome Nat :=
  follow (outcome (readHex text)) fun n rest =>
    if bad n then .error (.after 0 .loneSurrogate rest) else .ok (n, rest)

theorem local_accepted (bad : Nat → Bool) (a : List Char) : Local (accepted bad) a where
  shrinks h := by
    obtain ⟨n, middle, hn, h⟩ := follow_eq_ok.1 h
    split at h
    next => cases h
    next =>
      cases h
      exact Nat.le_of_lt (byteLength_lt_of_readHex hn)
  later h settled := by
    obtain h | ⟨n, middle, hn, h⟩ := follow_eq_error.1 h
    · obtain rfl := readHex_error h
      -- with fewer than four bytes the text has ended too early, which is not settled
      by_cases few : byteLength a < 4
      · rw [if_pos few] at settled
        cases settled
      · rw [if_neg few]
        simp only [Failure.after]
        omega
    · split at h
      next =>
        cases h
        exact byteLength_lt_of_readHex hn
      next => cases h
  answers agree h before := by
    obtain ⟨n, middle, hn, h⟩ := follow_eq_ok.1 h
    split at h
    next => cases h
    next good =>
      cases h
      obtain ⟨rest, hb, shared⟩ := exists_hex_of_agree agree hn (Nat.le_of_lt before)
      exact ⟨rest, by rw [accepted, hb, follow_ok, if_neg good], shared⟩
  fails agree h settled place := by
    obtain h | ⟨n, middle, hn, h⟩ := follow_eq_error.1 h
    · rw [accepted, readHex_fails agree h settled place, follow_error]
    · split at h
      next refused =>
        cases h
        obtain ⟨rest, hb, shared⟩ := exists_hex_of_agree agree hn (Nat.le_of_eq place.symm)
        have length := shared.length_eq
        simp only [Failure.after] at place
        rw [accepted, hb, follow_ok, if_pos refused, Failure.after]
        congr
        omega
      next => cases h

end Untyped.Json
