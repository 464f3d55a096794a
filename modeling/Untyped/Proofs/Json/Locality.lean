import Mathlib
import Untyped.Proofs.Json.Local
import Untyped.Proofs.Json.Numbers

/-! Every reader is decided by the bytes up to its place, and so is the reading of a whole text. -/
namespace Untyped.Json
open Text (Agree Alike byteLength)

/-! ### Words and strings -/

theorem local_readWord (letters : List Char) (ascii : ∀ k ∈ letters, k.toNat < 128) (j : Json)
    (a : List Char) : Local (fun t => (readWord letters t).map fun rest => (j, rest)) a := by
  induction letters generalizing a with
  | nil => exact .pure j a
  | cons k letters ih =>
    cases a with
    | nil => exact .unsettled rfl rfl
    | cons c rest =>
      by_cases hc : c = k
      · exact .take (fun t => by rw [readWord, if_pos hc])
          (ih (fun k hk => ascii k (by simp [hk])) rest)
      · refine .refuse .expectedWord fun d t alike => ?_
        rw [readWord, if_neg (mt (alike.eq_iff (ascii k (by simp))).2 hc)]
        rfl

theorem local_readPairing {k : Char} (ascii : k.toNat < 128) (a : List Char) :
    Local (fun t => outcome (readPairing k t)) a := by
  cases a with
  | nil => exact .unsettled rfl rfl
  | cons c rest =>
    by_cases hc : c = k
    · exact .take (fun t => by rw [outcome_readPairing_cons, if_pos hc]) (.pure () rest)
    · refine .refuse .unpairedSurrogate fun d t alike => ?_
      rw [outcome_readPairing_cons, if_neg (mt (alike.eq_iff ascii).2 hc)]

theorem local_readLowSurrogate (a : List Char) :
    Local (fun t => outcome (readLowSurrogate t)) a := by
  have low (t : List Char) : (follow (outcome (readHex t)) fun low rest =>
      if isLowSurrogate low then .ok (low, rest) else .error (.after 0 .loneSurrogate rest)) =
      accepted (fun n => !isLowSurrogate n) t := by
    rw [accepted]
    cases outcome (readHex t) with
    | error e => rfl
    | ok p =>
      simp only [follow]
      cases isLowSurrogate p.1 <;> rfl
  simp only [outcome_readLowSurrogate, low]
  exact (local_readPairing (by decide) a).follow fun _ t _ =>
    (local_readPairing (by decide) t).follow fun _ t _ => local_accepted _ t

theorem local_readUnicode (a : List Char) : Local (fun t => outcome (readUnicode t)) a := by
  have parts (t : List Char) : outcome (readUnicode t) =
      follow (accepted isLowSurrogate t) fun first rest =>
      if isHighSurrogate first then
        follow (outcome (readLowSurrogate rest)) fun low rest => .ok (pairedChar first low, rest)
      else .ok (Char.ofNat first, rest) := by
    rw [outcome_readUnicode, accepted]
    cases outcome (readHex t) with
    | error e => rfl
    | ok p =>
      simp only [follow]
      cases isLowSurrogate p.1 <;> rfl
  simp only [parts]
  refine (local_accepted isLowSurrogate a).follow fun first rest _ => ?_
  by_cases high : isHighSurrogate first
  · simp only [high, if_true]
    exact (local_readLowSurrogate rest).follow fun _ t _ => .pure _ t
  · simp only [high]
    exact .pure _ rest

theorem escaped?_of_alike {c d : Char} (alike : Alike c d) (h : escaped? c = none) :
    escaped? d = none := by
  obtain rfl | ⟨_, large⟩ := alike
  · exact h
  · unfold escaped?
    split
    all_goals first | rfl | exact absurd large (by decide)

theorem local_readEscape (a : List Char) : Local (fun t => outcome (readEscape t)) a := by
  cases a with
  | nil => exact .unsettled rfl rfl
  | cons c rest =>
    by_cases hc : c = 'u'
    · exact .take (fun t => by rw [outcome_readEscape_cons, if_pos hc]) (local_readUnicode rest)
    · cases he : escaped? c with
      | some e =>
        exact .take (fun t => by rw [outcome_readEscape_cons, if_neg hc, he]) (.pure e rest)
      | none =>
        refine .refuse .invalidEscape fun d t alike => ?_
        rw [outcome_readEscape_cons, if_neg (mt (alike.eq_iff (by decide)).2 hc),
          escaped?_of_alike alike he]

theorem local_readString (a : List Char) : Local (fun t => outcome (readString t)) a := by
  induction hn : a.length using Nat.strongRecOn generalizing a with
  | ind n ih =>
    cases a with
    | nil => exact .unsettled (by rw [readString]; rfl) rfl
    | cons c rest =>
      rw [List.length_cons] at hn
      by_cases quote : c = '"'
      · exact .take (fun t => by rw [outcome_readString_cons, if_pos quote]) (.pure [] rest)
      by_cases control : c.toNat < 0x20
      · refine .refuse .controlCharacter fun d t alike => ?_
        have control' : d.toNat < 0x20 :=
          (alike.iff (p := fun c => c.toNat < 0x20) fun k hk => by omega).1 control
        rw [outcome_readString_cons, if_neg (mt (alike.eq_iff (by decide)).2 quote),
          if_pos control']
      by_cases escape : c = '\\'
      · refine .take (fun t => by
          rw [outcome_readString_cons, if_neg quote, if_neg control, if_pos escape]) ?_
        refine (local_readEscape rest).follow fun e later he => ?_
        have := length_lt_of_outcome he
        exact (ih later.length (by omega) later rfl).follow fun _ t _ => .pure _ t
      · refine .take (fun t => by
          rw [outcome_readString_cons, if_neg quote, if_neg control, if_neg escape]) ?_
        exact (ih rest.length (by omega) rest rfl).follow fun _ t _ => .pure _ t

/-! ### Numbers -/

theorem lt_of_ofChar? {c : Char} {d : Digit} (h : Digit.ofChar? c = some d) : c.toNat < 128 := by
  have all : ∀ d : Digit, d.toChar.toNat < 128 := by decide
  rw [← Digit.toChar_of_ofChar? h]
  exact all d

theorem ofChar?_of_alike {c d : Char} (alike : Alike c d) : Digit.ofChar? d = Digit.ofChar? c := by
  obtain rfl | ⟨hc, hd⟩ := alike
  · rfl
  · have none {c : Char} (large : 128 ≤ c.toNat) : Digit.ofChar? c = none := by
      cases h : Digit.ofChar? c with
      | none => rfl
      | some k => exact absurd (lt_of_ofChar? h) (by omega)
    rw [none hc, none hd]

def digits (text : List Char) : Outcome (List Digit) := .ok (Digit.span text)

theorem digits_cons_none {c : Char} (h : Digit.ofChar? c = none) (t : List Char) :
    digits (c :: t) = .ok ([], c :: t) := by
  rw [digits, Digit.span, h]

theorem local_digits (a : List Char) : Local digits a := by
  induction a with
  | nil => exact .done rfl
  | cons c rest ih =>
    cases hc : Digit.ofChar? c with
    | none =>
      exact .alike (fun d t alike => digits_cons_none ((ofChar?_of_alike alike).trans hc) t)
        (.pure [] _)
    | some digit =>
      refine .take (g := fun t => follow (digits t) fun ds rest => .ok (digit :: ds, rest))
        (fun t => ?_) (ih.follow fun _ t _ => .pure _ t)
      rw [digits, Digit.span, hc]
      rfl

def someDigits (text : List Char) : Outcome (List Digit) :=
  follow (digits text) fun ds rest =>
    match ds, rest with
    | [], [] => .error (.atEnd .endInValue)
    | [], c :: rest => .error (.after 1 .invalidNumber (c :: rest))
    | d :: ds, rest => .ok (d :: ds, rest)

theorem local_someDigits (a : List Char) : Local someDigits a := by
  refine (local_digits a).follow fun ds rest _ => ?_
  cases ds with
  | cons d ds => exact .pure _ rest
  | nil =>
    cases rest with
    | nil => exact .unsettled rfl rfl
    | cons c rest => exact .refuse .invalidNumber fun _ _ _ => rfl

theorem local_readWhole (a : List Char) : Local (fun t => outcome (readWhole t)) a := by
  cases a with
  | nil => exact .unsettled rfl rfl
  | cons c rest =>
    cases hc : Digit.ofChar? c with
    | none =>
      refine .refuse .invalidNumber fun d t alike => ?_
      rw [outcome_readWhole_cons, ofChar?_of_alike alike, hc]
    | some first =>
      by_cases zero : first = Digit.zero
      · refine .take (g := fun t => if (Digit.span t).1 = [] then .ok ([first], t)
          else .error (.after 1 .invalidNumber t)) (fun t => ?_) ?_
        · rw [outcome_readWhole_cons, hc]
          exact if_pos zero
        cases rest with
        | nil => exact .done rfl
        | cons c' rest =>
          cases hc' : Digit.ofChar? c' with
          | none =>
            refine .alike (fun d t alike => ?_) (.pure [first] _)
            rw [Digit.span, ofChar?_of_alike alike, hc']
            rfl
          | some d' =>
            refine .refuse .invalidNumber fun d t alike => ?_
            rw [Digit.span, ofChar?_of_alike alike, hc']
            rfl
      · refine .take (g := fun t => follow (digits t) fun ds rest => .ok (first :: ds, rest))
          (fun t => ?_) ((local_digits rest).follow fun _ t _ => .pure _ t)
        rw [outcome_readWhole_cons, hc]
        exact if_neg zero

theorem local_readFraction (a : List Char) : Local readFraction a := by
  cases a with
  | nil => exact .done rfl
  | cons c rest =>
    by_cases hc : c = '.'
    · refine .take (fun t => ?_) (local_someDigits rest)
      rw [hc, readFraction, someDigits, digits]
      obtain ⟨_ | ⟨d, ds⟩, _ | ⟨c, rest⟩⟩ := Digit.span t <;> rfl
    · refine .alike (fun d t alike => ?_) (.pure [] _)
      rw [readFraction]
      exact fun t' same => hc ((alike.eq_iff (by decide)).2 (List.cons.inj same).1)

theorem local_readSign (a : List Char) :
    Local (fun t => (.ok (readSign t) : Outcome Bool)) a := by
  cases a with
  | nil => exact .done rfl
  | cons c rest =>
    by_cases plus : c = '+'
    · exact .take (fun t => by rw [plus, readSign]) (.pure false rest)
    by_cases minus : c = '-'
    · exact .take (fun t => by rw [minus, readSign]) (.pure true rest)
    · refine .alike (fun d t alike => ?_) (.pure false _)
      rw [readSign]
      · exact fun t' same => plus ((alike.eq_iff (by decide)).2 (List.cons.inj same).1)
      · exact fun t' same => minus ((alike.eq_iff (by decide)).2 (List.cons.inj same).1)

theorem local_readExponent (a : List Char) : Local readExponent a := by
  cases a with
  | nil => exact .done rfl
  | cons c rest =>
    by_cases hc : c = 'e' ∨ c = 'E'
    · refine .take (g := fun t => follow (.ok (readSign t) : Outcome Bool) fun negative t =>
        follow (someDigits t) fun ds rest => .ok (some (negative, ds), rest)) (fun t => ?_) ?_
      · rw [readExponent, if_pos hc, follow, someDigits, digits]
        obtain ⟨_ | ⟨d, ds⟩, _ | ⟨c, rest⟩⟩ := Digit.span (readSign t).2 <;> rfl
      · exact (local_readSign rest).follow fun _ t _ =>
          (local_someDigits t).follow fun _ t _ => .pure _ t
    · refine .alike (fun d t alike => ?_) (.pure none _)
      rw [readExponent, if_neg]
      rwa [← alike.eq_iff (by decide), ← alike.eq_iff (by decide)]

theorem local_readNumber (negative : Bool) (a : List Char) :
    Local (fun t => outcome (readNumber negative t)) a := by
  simp only [outcome_readNumber, outcome_readNumeral]
  refine Local.follow ?_ fun numeral rest _ => ?_
  · exact (local_readWhole a).follow fun _ t _ => (local_readFraction t).follow fun _ t _ =>
      (local_readExponent t).follow fun _ t _ => .pure _ t
  · cases numeral.toNumber with
    | ok n => exact .pure n rest
    | error unread => exact .unsettled rfl rfl

/-! ### Containers -/

/-- A reader of items skips blanks, and is decided by the bytes up to its place. -/
structure LocalItem (item : ItemReader) : Prop where
  skips : ∀ t, outcome (item (skipBlank t)) = outcome (item t)
  each : ∀ a, Local (fun t => outcome (item t)) a

variable {item : ItemReader}

theorem local_readMoreItems (h : LocalItem item) (a : List Char) :
    Local (fun t => outcome (readMoreItems item t)) a := by
  induction hn : a.length using Nat.strongRecOn generalizing a with
  | ind n ih =>
    refine .blank (fun t => by
      rw [outcome_readMoreItems, outcome_readMoreItems, skipBlank_skipBlank]) ?_
    cases hskip : skipBlank a with
    | nil => exact .unsettled (by rw [outcome_readMoreItems]; rfl) rfl
    | cons c rest =>
      have shorter := length_le_of_skipBlank hskip
      have notBlank := isBlank_of_skipBlank hskip
      rw [List.length_cons] at shorter
      by_cases close : c = ']'
      · refine .take (fun t => ?_) (.pure [] rest)
        rw [outcome_readMoreItems, skipBlank_cons notBlank]
        exact if_pos close
      by_cases comma : c = ','
      · refine .take (g := fun t => if (skipBlank t).head? = some ']' then
            .error (.after 1 .trailingComma (skipBlank t))
          else follow (outcome (item t)) fun j t =>
            follow (outcome (readMoreItems item t)) fun js rest => .ok (j :: js, rest))
          (fun t => ?_) ?_
        · rw [outcome_readMoreItems, skipBlank_cons notBlank]
          dsimp only
          rw [if_neg close, if_pos comma]
        · refine .refuse_next (by decide) (fun t => by rw [h.skips]) ?_
          refine (h.each _).follow fun j later hj => ?_
          have := length_lt_of_outcome hj
          have skipped := length_skipBlank rest
          exact (ih later.length (by omega) later rfl).follow fun _ t _ => .pure _ t
      · refine .refuse .expectedCommaOrBracket fun d t alike => ?_
        rw [outcome_readMoreItems, skipBlank_cons (not_blank_of_alike alike notBlank)]
        dsimp only
        rw [if_neg (mt (alike.eq_iff (by decide)).2 close),
          if_neg (mt (alike.eq_iff (by decide)).2 comma)]

theorem local_readItems (h : LocalItem item) (a : List Char) :
    Local (fun t => outcome (readItems item t)) a := by
  refine .blank (fun t => by rw [outcome_readItems, outcome_readItems, skipBlank_skipBlank]) ?_
  cases hskip : skipBlank a with
  | nil => exact .unsettled (by rw [outcome_readItems]; rfl) rfl
  | cons c rest =>
    have notBlank := isBlank_of_skipBlank hskip
    by_cases close : c = ']'
    · refine .take (fun t => ?_) (.pure [] rest)
      rw [outcome_readItems, skipBlank_cons notBlank]
      exact if_pos close
    · refine .alike (fun d t alike => ?_) ((h.each (c :: rest)).follow fun j later _ =>
        (local_readMoreItems h later).follow fun js t _ => .pure (j :: js) t)
      rw [outcome_readItems, skipBlank_cons (not_blank_of_alike alike notBlank)]
      exact if_neg (mt (alike.eq_iff (by decide)).2 close)

theorem local_readNamed (h : LocalItem item) (a : List Char) :
    Local (fun t => outcome (readNamed item t)) a := by
  refine .blank (fun t => by rw [outcome_readNamed, outcome_readNamed, skipBlank_skipBlank]) ?_
  cases hskip : skipBlank a with
  | nil => exact .unsettled (by rw [outcome_readNamed]; rfl) rfl
  | cons c rest =>
    have notBlank := isBlank_of_skipBlank hskip
    by_cases colon : c = ':'
    · refine .take (fun t => ?_) (h.each rest)
      rw [outcome_readNamed, skipBlank_cons notBlank]
      exact if_pos colon
    · refine .refuse .expectedColon fun d t alike => ?_
      rw [outcome_readNamed, skipBlank_cons (not_blank_of_alike alike notBlank)]
      exact if_neg (mt (alike.eq_iff (by decide)).2 colon)

theorem local_readMember (h : LocalItem item) (a : List Char) :
    Local (fun t => outcome (readMember item (skipBlank t))) a := by
  refine .blank (fun t => by rw [skipBlank_skipBlank]) ?_
  cases hskip : skipBlank a with
  | nil => exact .unsettled rfl rfl
  | cons c rest =>
    have notBlank := isBlank_of_skipBlank hskip
    by_cases quote : c = '"'
    · refine .take (fun t => ?_) ((local_readString rest).follow fun name later _ =>
        (local_readNamed h later).follow fun j t _ => .pure (String.ofList name, j) t)
      rw [skipBlank_cons notBlank, outcome_readMember_cons, if_pos quote]
    · refine .refuse .keyNotString fun d t alike => ?_
      rw [skipBlank_cons (not_blank_of_alike alike notBlank), outcome_readMember_cons,
        if_neg (mt (alike.eq_iff (by decide)).2 quote)]

theorem local_readMoreMembers (h : LocalItem item) (a : List Char) :
    Local (fun t => outcome (readMoreMembers item t)) a := by
  induction hn : a.length using Nat.strongRecOn generalizing a with
  | ind n ih =>
    refine .blank (fun t => by
      rw [outcome_readMoreMembers, outcome_readMoreMembers, skipBlank_skipBlank]) ?_
    cases hskip : skipBlank a with
    | nil => exact .unsettled (by rw [outcome_readMoreMembers]; rfl) rfl
    | cons c rest =>
      have shorter := length_le_of_skipBlank hskip
      have notBlank := isBlank_of_skipBlank hskip
      rw [List.length_cons] at shorter
      by_cases close : c = '\x7d'
      · refine .take (fun t => ?_) (.pure [] rest)
        rw [outcome_readMoreMembers, skipBlank_cons notBlank]
        exact if_pos close
      by_cases comma : c = ','
      · refine .take (g := fun t => if (skipBlank t).head? = some '\x7d' then
            .error (.after 1 .trailingComma (skipBlank t))
          else follow (outcome (readMember item (skipBlank t))) fun m t =>
            follow (outcome (readMoreMembers item t)) fun ms rest => .ok (m :: ms, rest))
          (fun t => ?_) ?_
        · rw [outcome_readMoreMembers, skipBlank_cons notBlank]
          dsimp only
          rw [if_neg close, if_pos comma]
        · refine .refuse_next (by decide) (fun t => by rw [skipBlank_skipBlank]) ?_
          refine (local_readMember h _).follow fun m later hm => ?_
          have := length_lt_of_outcome hm
          have skipped := length_skipBlank (skipBlank rest)
          have skipped' := length_skipBlank rest
          exact (ih later.length (by omega) later rfl).follow fun _ t _ => .pure _ t
      · refine .refuse .expectedCommaOrBrace fun d t alike => ?_
        rw [outcome_readMoreMembers, skipBlank_cons (not_blank_of_alike alike notBlank)]
        dsimp only
        rw [if_neg (mt (alike.eq_iff (by decide)).2 close),
          if_neg (mt (alike.eq_iff (by decide)).2 comma)]

theorem local_readMembers (h : LocalItem item) (a : List Char) :
    Local (fun t => outcome (readMembers item t)) a := by
  refine .blank (fun t => by
    rw [outcome_readMembers, outcome_readMembers, skipBlank_skipBlank]) ?_
  cases hskip : skipBlank a with
  | nil => exact .unsettled (by rw [outcome_readMembers]; rfl) rfl
  | cons c rest =>
    have notBlank := isBlank_of_skipBlank hskip
    by_cases close : c = '\x7d'
    · refine .take (fun t => ?_) (.pure [] rest)
      rw [outcome_readMembers, skipBlank_cons notBlank]
      exact if_pos close
    · refine .alike (fun d t alike => ?_) ((local_readMember h (c :: rest)).follow fun m later _ =>
        (local_readMoreMembers h later).follow fun ms t _ => .pure (m :: ms) t)
      rw [outcome_readMembers, skipBlank_cons (not_blank_of_alike alike notBlank)]
      exact if_neg (mt (alike.eq_iff (by decide)).2 close)

/-! ### Trees -/

theorem local_inside {inner : Option ItemReader} {f : List Char → Outcome Json}
    {inside : ItemReader → List Char → Outcome Json} {c : Char} {rest : List Char}
    (opens : ∀ d t, Alike c d → f (d :: t) = insideOutcome inner (d :: t) (inside · t))
    (h : ∀ item, inner = some item → Local (inside item) rest) : Local f (c :: rest) := by
  cases inner with
  | none => exact .refuse .recursionLimit opens
  | some item => exact .take (fun t => opens c t (.refl c)) (h item rfl)

theorem localItem_readItem {inner : Option ItemReader}
    (h : ∀ item, inner = some item → LocalItem item) : LocalItem (readItem inner) where
  skips t := by rw [outcome_readItem, outcome_readItem, skipBlank_skipBlank]
  each a := by
    refine .blank (fun t => by rw [outcome_readItem, outcome_readItem, skipBlank_skipBlank]) ?_
    cases hskip : skipBlank a with
    | nil => exact .unsettled (by rw [outcome_readItem]; rfl) rfl
    | cons c rest =>
      have notBlank := isBlank_of_skipBlank hskip
      have first (d : Char) (t : List Char) (alike : Alike c d) :
          outcome (readItem inner (d :: t)) = outcome (readTree inner d t) := by
        rw [outcome_readItem, skipBlank_cons (not_blank_of_alike alike notBlank)]
      have same (t : List Char) := first c t (.refl c)
      simp only [outcome_readTree] at first same
      by_cases hn : c = 'n'
      · exact .take (fun t => by rw [same, if_pos hn]) (local_readWord _ (by simp) _ rest)
      by_cases ht : c = 't'
      · exact .take (fun t => by rw [same, if_neg hn, if_pos ht])
          (local_readWord _ (by simp) _ rest)
      by_cases hf : c = 'f'
      · exact .take (fun t => by rw [same, if_neg hn, if_neg ht, if_pos hf])
          (local_readWord _ (by simp) _ rest)
      by_cases minus : c = '-'
      · exact .take (fun t => by rw [same, if_neg hn, if_neg ht, if_neg hf, if_pos minus])
          ((local_readNumber true rest).follow fun _ t _ => .pure _ t)
      by_cases digit : (Digit.ofChar? c).isSome
      · -- the digit is not taken here, the number starts with it
        refine .alike (fun d t alike => ?_)
          ((local_readNumber false (c :: rest)).follow fun n t _ => .pure (Json.number n) t)
        obtain rfl : c = d := by
          obtain ⟨k, hk⟩ := Option.isSome_iff_exists.1 digit
          have small := lt_of_ofChar? hk
          obtain same | ⟨large, _⟩ := alike
          · exact same
          · omega
        rw [same, if_neg hn, if_neg ht, if_neg hf, if_neg minus, if_pos digit]
      by_cases quote : c = '"'
      · refine .take (fun t => ?_) ((local_readString rest).follow fun cs t _ =>
          .pure (Json.string (String.ofList cs)) t)
        rw [same, if_neg hn, if_neg ht, if_neg hf, if_neg minus, if_neg digit, if_pos quote]
      by_cases bracket : c = '['
      · refine local_inside
          (fun d t alike => ?_) fun item hi =>
            (local_readItems (h item hi) rest).follow fun js t _ => .pure (ofItems js) t
        obtain rfl : d = c := ((alike.eq_iff (by decide)).1 bracket).trans bracket.symm
        rw [same, if_neg hn, if_neg ht, if_neg hf, if_neg minus, if_neg digit, if_neg quote,
          if_pos bracket]
      by_cases brace : c = '\x7b'
      · refine local_inside
          (fun d t alike => ?_) fun item hi =>
            (local_readMembers (h item hi) rest).follow fun ms t _ => .pure (ofMembers ms) t
        obtain rfl : d = c := ((alike.eq_iff (by decide)).1 brace).trans brace.symm
        rw [same, if_neg hn, if_neg ht, if_neg hf, if_neg minus, if_neg digit, if_neg quote,
          if_neg bracket, if_pos brace]
      · refine .refuse .expectedValue fun d t alike => ?_
        have differs {k : Char} (ascii : k.toNat < 128) (hc : c ≠ k) : d ≠ k :=
          mt (alike.eq_iff ascii).2 hc
        rw [first d t alike, if_neg (differs (by decide) hn), if_neg (differs (by decide) ht),
          if_neg (differs (by decide) hf), if_neg (differs (by decide) minus),
          if_neg (by rwa [ofChar?_of_alike alike]), if_neg (differs (by decide) quote),
          if_neg (differs (by decide) bracket), if_neg (differs (by decide) brace)]

theorem localItem_readNested (depth : Nat) : LocalItem (readNested depth) := by
  induction depth with
  | zero => exact localItem_readItem (by simp)
  | succ depth ih => exact localItem_readItem fun item h => by cases h; exact ih

/-! ### Whole texts -/

def finish (j : Json) (text : List Char) : Outcome Json :=
  match skipBlank text with
  | [] => .ok (j, [])
  | c :: rest => .error (.after 1 .trailingCharacters (c :: rest))

theorem local_finish (j : Json) (a : List Char) : Local (finish j) a := by
  refine .blank (fun t => by rw [finish, finish, skipBlank_skipBlank]) ?_
  cases hskip : skipBlank a with
  | nil => exact .done rfl
  | cons c rest =>
    refine .refuse .trailingCharacters fun d t alike => ?_
    rw [finish, skipBlank_cons (not_blank_of_alike alike (isBlank_of_skipBlank hskip))]

theorem readChars_eq_error_iff (text : List Char) (e : Failure) :
    readChars text = .error e ↔ follow (outcome (readNested maxDepth text)) finish = .error e := by
  rw [readChars_eq]
  cases outcome (readNested maxDepth text) with
  | error e' => simp
  | ok p =>
    obtain ⟨j, rest⟩ := p
    rw [follow_ok, finish]
    dsimp only
    cases skipBlank rest <;> simp

/-- A settled failure lies in the text, and every text that agrees up to there fails alike. -/
theorem readChars_fails {a : List Char} {e : Failure} (h : readChars a = .error e)
    (settled : e.reason.settled) : e.left < byteLength a ∧
      ∀ x y b, Agree x y a b → x.length = e.left → readChars b = .error ⟨e.reason, y.length⟩ := by
  have whole : Local (fun t => follow (outcome (readNested maxDepth t)) finish) a :=
    ((localItem_readNested maxDepth).each a).follow fun j rest _ => local_finish j rest
  rw [readChars_eq_error_iff] at h
  refine ⟨whole.later h settled, fun x y b agree place => ?_⟩
  rw [readChars_eq_error_iff]
  exact whole.fails agree h settled place.symm

end Untyped.Json
