import Mathlib
import Untyped.Json.Reader

/-! The grammar of JSON texts, as data: a derivation holds every character of its text, so the texts
of the grammar are exactly the texts of its derivations. Blanks may stand before and after every
element, every name and every bracket. Nothing here looks at how a text is read. -/
namespace Untyped.Json

structure Blank where
  chars : List Char
  blank : ∀ c ∈ chars, isBlank c

def Blank.none : Blank := ⟨[], by simp⟩

/-! ### Strings -/

structure HexDigit where
  value : Fin 16
  upper : Bool
deriving DecidableEq

def HexDigit.char (h : HexDigit) : Char :=
  if h.upper then (Nat.digitChar h.value).toUpper else Nat.digitChar h.value

def HexDigit.number (a b c d : HexDigit) : Nat :=
  ((a.value * 16 + b.value) * 16 + c.value) * 16 + d.value

inductive ShortEscape where
  | quote
  | backslash
  | slash
  | backspace
  | formFeed
  | newline
  | carriageReturn
  | tab

namespace ShortEscape

def letter : ShortEscape → Char
  | quote => '"'
  | backslash => '\\'
  | slash => '/'
  | backspace => 'b'
  | formFeed => 'f'
  | newline => 'n'
  | carriageReturn => 'r'
  | tab => 't'

def char : ShortEscape → Char
  | quote => '"'
  | backslash => '\\'
  | slash => '/'
  | backspace => '\x08'
  | formFeed => '\x0c'
  | newline => '\n'
  | carriageReturn => '\r'
  | tab => '\t'

end ShortEscape

/-- A piece of a string: a character that stands for itself, or an escape. -/
inductive Piece where
  | plain (c : Char) (allowed : 0x20 ≤ c.toNat ∧ c ≠ '"' ∧ c ≠ '\\')
  | short (e : ShortEscape)
  | unit (a b c d : HexDigit)

namespace Piece

def text : Piece → List Char
  | plain c _ => [c]
  | short e => ['\\', e.letter]
  | unit a b c d => ['\\', 'u', a.char, b.char, c.char, d.char]

def unit? : Piece → Option Nat
  | unit a b c d => some (HexDigit.number a b c d)
  | _ => none

def isHigh (p : Piece) : Bool := p.unit?.any isHighSurrogate

def isLow (p : Piece) : Bool := p.unit?.any isLowSurrogate

def char? : Piece → Option Char
  | plain c _ => some c
  | short e => some e.char
  | unit a b c d =>
    let n := HexDigit.number a b c d
    if isHighSurrogate n || isLowSurrogate n then none else some (Char.ofNat n)

def paired? (p q : Piece) : Option Char :=
  match p.unit?, q.unit? with
  | some high, some low =>
    if isHighSurrogate high && isLowSurrogate low then some (pairedChar high low) else none
  | _, _ => none

end Piece

/-- Every half of a pair stands beside its other half. -/
inductive Paired : List Piece → Prop where
  | nil : Paired []
  | one {p : Piece} {rest : List Piece} (high : p.isHigh = false) (low : p.isLow = false)
      (later : Paired rest) : Paired (p :: rest)
  | pair {p q : Piece} {rest : List Piece} (high : p.isHigh = true) (low : q.isLow = true)
      (later : Paired rest) : Paired (p :: q :: rest)

/-- The characters of a string, if every half of a pair stands beside its other half. -/
def decode? : List Piece → Option (List Char)
  | [] => some []
  | p :: rest =>
    match p.char? with
    | some c => (decode? rest).map (List.cons c)
    | none =>
      match rest with
      | [] => none
      | q :: later => (p.paired? q).bind fun c => (decode? later).map (List.cons c)

/-! ### Numbers -/

structure Exponent where
  upper : Bool
  sign : Option Bool
  digits : List Digit
  nonempty : digits ≠ []

def signText : Option Bool → List Char
  | none => []
  | some false => ['+']
  | some true => ['-']

def Exponent.text (e : Exponent) : List Char :=
  (if e.upper then 'E' else 'e') :: (signText e.sign ++ Digit.chars e.digits)

/-- A number as it is written. There is a point exactly if there are digits after it. -/
structure NumberToken where
  negative : Bool
  leading : Digit
  later : List Digit
  lone_zero : leading = 0 → later = []
  fraction : List Digit
  exponent : Option Exponent

namespace NumberToken

def fractionText (digits : List Digit) : List Char :=
  if digits = [] then [] else '.' :: Digit.chars digits

def unsigned (t : NumberToken) : List Char :=
  Digit.chars (t.leading :: t.later) ++
    (fractionText t.fraction ++ t.exponent.elim [] Exponent.text)

def text (t : NumberToken) : List Char := if t.negative then '-' :: t.unsigned else t.unsigned

/-- The parts of a number that its value depends on. -/
def numeral (t : NumberToken) : Numeral :=
  ⟨t.negative, t.leading :: t.later, t.fraction,
    t.exponent.map fun e => (e.sign = some true, e.digits)⟩

/-- The integer that is written, if there is neither a fraction nor an exponent; a negative zero is
none. -/
def integer? (t : NumberToken) : Option Int :=
  let magnitude := Digit.toNat (t.leading :: t.later)
  if t.fraction = [] ∧ t.exponent.isNone then
    if t.negative then if magnitude = 0 then none else some (-(magnitude : Int))
    else some (magnitude : Int)
  else none

/-- The number that is meant: an integer of 64 bits where one is written, otherwise the double it is
rounded to, if that is in range. -/
def number? (t : NumberToken) : Option Number :=
  (t.integer?.bind Number.ofInt?).or t.numeral.toRounded.toOption

end NumberToken

/-! ### Trees -/

inductive Scalar where
  | null
  | bool (b : Bool)
  | number (t : NumberToken)
  | string (pieces : List Piece)

namespace Scalar

def text : Scalar → List Char
  | null => ['n', 'u', 'l', 'l']
  | bool true => ['t', 'r', 'u', 'e']
  | bool false => ['f', 'a', 'l', 's', 'e']
  | number t => t.text
  | string pieces => '"' :: (pieces.flatMap Piece.text ++ ['"'])

def tree? : Scalar → Option Json
  | null => some .null
  | bool b => some (.bool b)
  | number t => t.number?.map .number
  | string pieces => (decode? pieces).map fun cs => .string (String.ofList cs)

end Scalar

structure Label where
  before : Blank
  name : List Piece
  after : Blank

def Label.text (l : Label) : List Char :=
  l.before.chars ++ (Scalar.string l.name).text ++ l.after.chars

/-- A value with the blanks around it. The gap of a container stands after its opening bracket. -/
inductive Element where
  | scalar (before : Blank) (value : Scalar) (after : Blank)
  | array (before gap : Blank) (items : List Element) (after : Blank)
  | object (before gap : Blank) (members : List (Label × Element)) (after : Blank)

namespace Element

theorem induction {P : Element → Prop}
    (scalar : ∀ before value after, P (scalar before value after))
    (array : ∀ before gap items after, (∀ e ∈ items, P e) → P (array before gap items after))
    (object : ∀ before gap members after,
      (∀ m ∈ members, P m.2) → P (object before gap members after)) : ∀ e, P e :=
  @Element.rec P (fun items => ∀ e ∈ items, P e) (fun members => ∀ m ∈ members, P m.2)
    (fun m => P m.2) scalar array object (by simp)
    (fun _ _ first rest => List.forall_mem_cons.2 ⟨first, rest⟩) (by simp)
    (fun _ _ first rest => List.forall_mem_cons.2 ⟨first, rest⟩) fun _ _ h => h

section Fold

variable {β : Type} (scalar : Blank → Scalar → Blank → β)
  (array : Blank → Blank → List β → Blank → β) (object : Blank → Blank → List (Label × β) → Blank → β)

mutual

/-- What is made of an element from what is made of its parts. -/
def fold : Element → β
  | .scalar before value after => scalar before value after
  | .array before gap items after => array before gap (foldItems items) after
  | .object before gap members after => object before gap (foldMembers members) after

def foldItems : List Element → List β
  | [] => []
  | e :: rest => fold e :: foldItems rest

def foldMembers : List (Label × Element) → List (Label × β)
  | [] => []
  | (l, e) :: rest => (l, fold e) :: foldMembers rest

end

theorem foldItems_eq (items : List Element) :
    foldItems scalar array object items = items.map (fold scalar array object) := by
  induction items with
  | nil => rfl
  | cons e rest ih => rw [foldItems, ih, List.map_cons]

theorem foldMembers_eq (members : List (Label × Element)) :
    foldMembers scalar array object members =
      members.map fun m => (m.1, fold scalar array object m.2) := by
  induction members with
  | nil => rfl
  | cons m rest ih => rw [foldMembers, ih, List.map_cons]

end Fold

def joined : List (List Char) → List Char
  | [] => []
  | first :: rest => first ++ rest.flatMap fun text => ',' :: text

def memberText (m : Label × List Char) : List Char := m.1.text ++ ':' :: m.2

def text : Element → List Char :=
  fold (fun before value after => before.chars ++ value.text ++ after.chars)
    (fun before gap items after =>
      before.chars ++ '[' :: (gap.chars ++ joined items ++ ']' :: after.chars))
    (fun before gap members after =>
      before.chars ++ '\x7b' ::
        (gap.chars ++ joined (members.map memberText) ++ '\x7d' :: after.chars))

/-- The number of containers nested in an element, itself included. -/
def depth : Element → Nat :=
  fold (fun _ _ _ => 0) (fun _ _ items _ => items.foldr max 0 + 1)
    (fun _ _ members _ => (members.map Prod.snd).foldr max 0 + 1)

def every {α : Type} : List (Option α) → Option (List α)
  | [] => some []
  | first :: rest => first.bind fun a => (every rest).map (List.cons a)

def member? (m : Label × Option Json) : Option (String × Json) :=
  (decode? m.1.name).bind fun cs => m.2.map fun j => (String.ofList cs, j)

/-- The tree of an element. There is none where half of a pair stands alone or a number is out of
range; of members with one name the last one is kept. -/
def tree? : Element → Option Json :=
  fold (fun _ value _ => value.tree?) (fun _ _ items _ => (every items).map .ofItems)
    (fun _ _ members _ => (every (members.map member?)).map .ofMembers)

def scalars : Element → List Scalar :=
  fold (fun _ value _ => [value]) (fun _ _ items _ => items.flatten)
    (fun _ _ members _ => members.flatMap fun m => .string m.1.name :: m.2)

/-- In every string, each half of a pair stands beside its other half. -/
def Paired (e : Element) : Prop := ∀ pieces, .string pieces ∈ e.scalars → Json.Paired pieces

/-- No number is too large for a double. -/
def InRange (e : Element) : Prop := ∀ t, .number t ∈ e.scalars → t.number?.isSome

theorem text_scalar (before : Blank) (value : Scalar) (after : Blank) :
    (scalar before value after).text = before.chars ++ value.text ++ after.chars := rfl

theorem text_array (before gap : Blank) (items : List Element) (after : Blank) :
    (array before gap items after).text =
      before.chars ++ '[' :: (gap.chars ++ joined (items.map text) ++ ']' :: after.chars) := by
  unfold text
  rw [fold, foldItems_eq]

theorem text_object (before gap : Blank) (members : List (Label × Element)) (after : Blank) :
    (object before gap members after).text = before.chars ++ '\x7b' :: (gap.chars ++
      joined (members.map fun m => memberText (m.1, m.2.text)) ++ '\x7d' :: after.chars) := by
  unfold text
  rw [fold, foldMembers_eq, List.map_map]
  rfl

theorem depth_array (before gap : Blank) (items : List Element) (after : Blank) :
    (array before gap items after).depth = (items.map depth).foldr max 0 + 1 := by
  unfold depth
  rw [fold, foldItems_eq]

theorem depth_object (before gap : Blank) (members : List (Label × Element)) (after : Blank) :
    (object before gap members after).depth =
      (members.map fun m => m.2.depth).foldr max 0 + 1 := by
  unfold depth
  rw [fold, foldMembers_eq, List.map_map]
  rfl

theorem tree?_scalar (before : Blank) (value : Scalar) (after : Blank) :
    (scalar before value after).tree? = value.tree? := rfl

theorem tree?_array (before gap : Blank) (items : List Element) (after : Blank) :
    (array before gap items after).tree? = (every (items.map tree?)).map .ofItems := by
  unfold tree?
  rw [fold, foldItems_eq]

theorem tree?_object (before gap : Blank) (members : List (Label × Element)) (after : Blank) :
    (object before gap members after).tree? =
      (every (members.map fun m => member? (m.1, m.2.tree?))).map .ofMembers := by
  unfold tree?
  rw [fold, foldMembers_eq, List.map_map]
  rfl

theorem scalars_array (before gap : Blank) (items : List Element) (after : Blank) :
    (array before gap items after).scalars = items.flatMap scalars := by
  unfold scalars
  rw [fold, foldItems_eq, List.flatMap_def]

theorem scalars_object (before gap : Blank) (members : List (Label × Element)) (after : Blank) :
    (object before gap members after).scalars =
      members.flatMap fun m => .string m.1.name :: m.2.scalars := by
  unfold scalars
  rw [fold, foldMembers_eq, List.flatMap_map]

def after : Element → Blank
  | scalar _ _ after => after
  | array _ _ _ after => after
  | object _ _ _ after => after

def front : Element → List Char
  | scalar before value _ => before.chars ++ value.text
  | array before gap items _ =>
    before.chars ++ '[' :: (gap.chars ++ joined (items.map text) ++ [']'])
  | object before gap members _ =>
    before.chars ++ '\x7b' :: (gap.chars ++
      joined (members.map fun m => memberText (m.1, m.2.text)) ++ ['\x7d'])

theorem text_eq (e : Element) : e.text = e.front ++ e.after.chars := by
  cases e with
  | scalar before value after => rfl
  | array before gap items after => simp [text_array, front, Element.after]
  | object before gap members after => simp [text_object, front, Element.after]

theorem forall₂_imp_mem {α β : Type} {R S : α → β → Prop} {xs : List α} {ys : List β}
    (h : List.Forall₂ R xs ys) (hs : ∀ x ∈ xs, ∀ y, R x y → S x y) : List.Forall₂ S xs ys :=
  ((List.forall₂_and_left xs ys).2 ⟨hs, h⟩).imp fun _ y h => h.1 y h.2

theorem exists_forall₂ {α β : Type} {R : α → β → Prop} {xs : List α} (h : ∀ x ∈ xs, ∃ y, R x y) :
    ∃ ys, List.Forall₂ R xs ys := by
  induction xs with
  | nil => exact ⟨[], .nil⟩
  | cons x xs ih =>
    obtain ⟨y, first⟩ := h x (by simp)
    obtain ⟨ys, later⟩ := ih fun x hx => h x (by simp [hx])
    exact ⟨y :: ys, .cons first later⟩

theorem exists_of_mem_forall₂ {α β : Type} {R : α → β → Prop} {xs : List α} {ys : List β}
    (h : List.Forall₂ R xs ys) {y : β} (hy : y ∈ ys) : ∃ x ∈ xs, R x y := by
  induction h with
  | nil => simp at hy
  | cons first _ ih =>
    obtain rfl | hy := List.mem_cons.1 hy
    · exact ⟨_, by simp, first⟩
    · obtain ⟨x, hx, hy⟩ := ih hy
      exact ⟨x, by simp [hx], hy⟩

theorem every_map_eq_some {α β : Type} {f : α → Option β} {xs : List α} {ys : List β} :
    every (xs.map f) = some ys ↔ List.Forall₂ (fun x y => f x = some y) xs ys := by
  induction xs generalizing ys with
  | nil => simp [every, eq_comm]
  | cons x xs ih =>
    rw [List.map_cons, every, List.forall₂_cons_left_iff]
    constructor
    · intro h
      obtain ⟨y, hy, h⟩ := Option.bind_eq_some_iff.1 h
      obtain ⟨later, hl, rfl⟩ := Option.map_eq_some_iff.1 h
      exact ⟨y, later, hy, ih.1 hl, rfl⟩
    · rintro ⟨y, later, hy, hl, rfl⟩
      rw [hy, ih.2 hl]
      rfl

theorem exists_of_mem_every {α β : Type} {f : α → Option β} {xs : List α} {ys : List β}
    (h : every (xs.map f) = some ys) {y : β} (hy : y ∈ ys) : ∃ x ∈ xs, f x = some y :=
  exists_of_mem_forall₂ (every_map_eq_some.1 h) hy

theorem isSome_every_map {α β : Type} {f : α → Option β} (xs : List α) :
    (every (xs.map f)).isSome ↔ ∀ x ∈ xs, (f x).isSome := by
  induction xs with
  | nil => simp [every]
  | cons x xs ih =>
    rw [List.map_cons, every, List.forall_mem_cons, ← ih]
    cases f x <;> simp

theorem foldr_max_le_iff {α : Type} (f : α → Nat) (xs : List α) (n : Nat) :
    (xs.map f).foldr max 0 ≤ n ↔ ∀ x ∈ xs, f x ≤ n := by
  induction xs with
  | nil => simp
  | cons x xs ih => simp [ih]

def laterItems (items : List Element) (rest : List Char) : List Char :=
  (items.map text).flatMap (fun text => ',' :: text) ++ ']' :: rest

theorem laterItems_cons (e : Element) (items : List Element) (rest : List Char) :
    laterItems (e :: items) rest =
      ',' :: (e.front ++ (e.after.chars ++ laterItems items rest)) := by
  simp [laterItems, e.text_eq]

def fromName (l : Label) (rest : List Char) : List Char :=
  '"' :: (l.name.flatMap Piece.text ++ '"' :: (l.after.chars ++ ':' :: rest))

def laterMembers (members : List (Label × Element)) (rest : List Char) : List Char :=
  (members.map fun m => memberText (m.1, m.2.text)).flatMap (fun text => ',' :: text) ++
    '\x7d' :: rest

theorem laterMembers_cons (m : Label × Element) (members : List (Label × Element))
    (rest : List Char) :
    laterMembers (m :: members) rest =
      ',' :: (m.1.before.chars ++
        fromName m.1 (m.2.front ++ (m.2.after.chars ++ laterMembers members rest))) := by
  simp [laterMembers, fromName, memberText, Label.text, Scalar.text, m.2.text_eq]

theorem joined_items (e : Element) (items : List Element) (rest : List Char) :
    joined ((e :: items).map text) ++ ']' :: rest =
      e.front ++ (e.after.chars ++ laterItems items rest) := by
  simp [joined, laterItems, e.text_eq]

theorem joined_members (m : Label × Element) (members : List (Label × Element))
    (rest : List Char) :
    joined ((m :: members).map fun m => memberText (m.1, m.2.text)) ++ '\x7d' :: rest =
      m.1.before.chars ++
        fromName m.1 (m.2.front ++ (m.2.after.chars ++ laterMembers members rest)) := by
  simp [joined, laterMembers, fromName, memberText, Label.text, Scalar.text, m.2.text_eq]

end Element

end Untyped.Json
