import Holdem.Lib.Dict
import Holdem.Lib.Numeral
import Mathlib.Data.Rat.Defs
import Mathlib.Data.List.Basic

set_option autoImplicit false

/- JSON values as Python holds them, and the texts that denote them. -/

/-- A Python `float`. -/
inductive Float64
  | finite (value : Rat)
  | nan
  | infinity
  | negInfinity
deriving DecidableEq

/-- What `json.loads` can return. -/
inductive Json
  | null
  | bool (value : Bool)
  | int (value : Int)
  | float (value : Float64)
  | str (text : List Char)
  | list (items : List Json)
  | dict (entries : List (List Char × Json))

namespace Json

def truthy : Json → Bool
  | .null => false
  | .bool value => value
  | .int number => number != 0
  | .float value => value != .finite 0
  | .str text => !text.isEmpty
  | .list items => !items.isEmpty
  | .dict entries => !entries.isEmpty

/-- The white space between the tokens of a JSON text. -/
def Blank (text : List Char) : Prop := ∀ char ∈ text, char ∈ [' ', '\t', '\n', '\r']

/-- The escapes of one letter. -/
def shortEscape : Char → Option Char
  | '"' => some '"'
  | '\\' => some '\\'
  | '/' => some '/'
  | 'b' => some '\x08'
  | 'f' => some '\x0c'
  | 'n' => some '\n'
  | 'r' => some '\r'
  | 't' => some '\t'
  | _ => none

def hexDigit (char : Char) : Option Nat := "0123456789abcdef".toList.idxOf? char.toLower

/-- A code unit from its four digits. -/
def hexValue : List Char → Option Nat
  | [first, second, third, fourth] =>
      (hexDigit first).bind fun a => (hexDigit second).bind fun b =>
        (hexDigit third).bind fun c => (hexDigit fourth).map fun d =>
          ((a * 16 + b) * 16 + c) * 16 + d
  | _ => none

/-- What the quotes around a text may hold. Half of a surrogate pair is no character, so that
one without its other half is read here as the character of code 0. -/
inductive Spells : List Char → List Char → Prop
  | nil : Spells [] []
  | plain {char : Char} {raw text : List Char} (quote : char ≠ '"') (slash : char ≠ '\\')
      (printed : 32 ≤ char.toNat) (rest : Spells raw text) : Spells (char :: raw) (char :: text)
  | short {letter char : Char} {raw text : List Char} (escape : shortEscape letter = some char)
      (rest : Spells raw text) : Spells ('\\' :: letter :: raw) (char :: text)
  | unit {digits : List Char} {code : Nat} {raw text : List Char}
      (value : hexValue digits = some code) (rest : Spells raw text) :
      Spells ('\\' :: 'u' :: (digits ++ raw)) (Char.ofNat code :: text)
  | pair {high low : List Char} {first second : Nat} {raw text : List Char}
      (value : hexValue high = some first) (other : hexValue low = some second)
      (leads : 0xD800 ≤ first ∧ first < 0xDC00) (trails : 0xDC00 ≤ second ∧ second < 0xE000)
      (rest : Spells raw text) :
      Spells ('\\' :: 'u' :: (high ++ '\\' :: 'u' :: (low ++ raw)))
        (Char.ofNat (0x10000 + (first - 0xD800) * 0x400 + (second - 0xDC00)) :: text)

/-- A number without fraction and exponent. -/
def IntText (text : List Char) (value : Int) : Prop :=
  text = (toString value).toList ∨ (text = "-0".toList ∧ value = 0)

/-- A number with a fraction or an exponent, by its characters. -/
def FloatText (text : List Char) : Prop := ∀ char ∈ text, char ∈ "0123456789+-.eE".toList

mutual

/-- The text, without white space around it, denotes the value. The value of a number with a
fraction or an exponent is the decoder's choice. -/
inductive Denotes : List Char → Json → Prop
  | null : Denotes "null".toList .null
  | true : Denotes "true".toList (.bool true)
  | false : Denotes "false".toList (.bool false)
  | nan : Denotes "NaN".toList (.float .nan)
  | infinity : Denotes "Infinity".toList (.float .infinity)
  | negInfinity : Denotes "-Infinity".toList (.float .negInfinity)
  | int {text : List Char} {value : Int} (literal : IntText text value) :
      Denotes text (.int value)
  | float {text : List Char} (value : Float64) (literal : FloatText text) :
      Denotes text (.float value)
  | str {raw text : List Char} (literal : Spells raw text) :
      Denotes ('"' :: (raw ++ ['"'])) (.str text)
  | emptyList {blank : List Char} (white : Blank blank) :
      Denotes ('[' :: (blank ++ [']'])) (.list [])
  | list {inside : List Char} {items : List Json} (elements : Items inside items) :
      Denotes ('[' :: (inside ++ [']'])) (.list items)
  | emptyDict {blank : List Char} (white : Blank blank) :
      Denotes ('\x7b' :: (blank ++ ['\x7d'])) (.dict [])
  | dict {inside : List Char} {pairs : List (List Char × Json)} (members : Members inside pairs) :
      Denotes ('\x7b' :: (inside ++ ['\x7d'])) (.dict (Dict.ofPairs pairs))

/-- What stands between the brackets of a list that is not empty. -/
inductive Items : List Char → List Json → Prop
  | last {before text after : List Char} {value : Json} (white : Blank before)
      (element : Denotes text value) (blank : Blank after) :
      Items (before ++ text ++ after) [value]
  | cons {before text after more : List Char} {value : Json} {items : List Json}
      (white : Blank before) (element : Denotes text value) (blank : Blank after)
      (rest : Items more items) :
      Items (before ++ text ++ after ++ ',' :: more) (value :: items)

/-- What stands between the braces of a dictionary that is not empty. -/
inductive Members : List Char → List (List Char × Json) → Prop
  | last {member : List Char} {pair : List Char × Json} (only : Member member pair) :
      Members member [pair]
  | cons {member more : List Char} {pair : List Char × Json} {pairs : List (List Char × Json)}
      (first : Member member pair) (rest : Members more pairs) :
      Members (member ++ ',' :: more) (pair :: pairs)

/-- A key and its value. -/
inductive Member : List Char → List Char × Json → Prop
  | pair {before raw key gap later text after : List Char} {value : Json} (white : Blank before)
      (name : Spells raw key) (blank : Blank gap) (space : Blank later)
      (element : Denotes text value) (last : Blank after) :
      Member (before ++ '"' :: raw ++ '"' :: gap ++ ':' :: later ++ text ++ after) (key, value)

end

/-! ### Quotes -/

/-- Where a reader from left to right stands: outside the quotes, inside them, behind the
backslash of an escape, or behind a backslash outside the quotes. -/
inductive Quote
  | outside
  | inside
  | escaped
  | broken
deriving DecidableEq, Repr

def Quote.next : Quote → Char → Quote
  | .outside, char => if char = '"' then .inside else if char = '\\' then .broken else .outside
  | .inside, char => if char = '"' then .outside else if char = '\\' then .escaped else .inside
  | .escaped, _ => .inside
  | .broken, _ => .broken

def scan (state : Quote) (text : List Char) : Quote := text.foldl Quote.next state

@[simp] theorem scan_nil (state : Quote) : scan state [] = state := rfl

@[simp] theorem scan_cons (state : Quote) (char : Char) (text : List Char) :
    scan state (char :: text) = scan (state.next char) text := rfl

@[simp] theorem scan_append (state : Quote) (first second : List Char) :
    scan state (first ++ second) = scan (scan state first) second := List.foldl_append

/-- Neither a quote nor a backslash. -/
def Bare (text : List Char) : Prop := ∀ char ∈ text, char ≠ '"' ∧ char ≠ '\\'

theorem scan_settled {state : Quote} (settled : state ≠ .escaped) {text : List Char}
    (bare : Bare text) : scan state text = state := by
  induction text with
  | nil => rfl
  | cons char rest ih =>
      obtain ⟨quote, slash⟩ := bare char (List.mem_cons_self ..)
      have step : state.next char = state := by
        cases state with
        | outside => simp only [Quote.next, if_neg quote, if_neg slash]
        | inside => simp only [Quote.next, if_neg quote, if_neg slash]
        | escaped => exact absurd rfl settled
        | broken => rfl
      rw [scan_cons, step]
      exact ih fun other member => bare other (List.mem_cons_of_mem _ member)

theorem scan_bare {text : List Char} (bare : Bare text) : scan .outside text = .outside :=
  scan_settled (by decide) bare

theorem bare_inside {text : List Char} (bare : Bare text) : scan .inside text = .inside :=
  scan_settled (by decide) bare

theorem Bare.of_listed {signs text : List Char} (bare : Bare signs)
    (listed : ∀ char ∈ text, char ∈ signs) : Bare text :=
  fun char member => bare char (listed char member)

theorem Blank.bare {text : List Char} (blank : Blank text) : Bare text := by
  have signs : Bare [' ', '\t', '\n', '\r'] := by
    unfold Bare
    decide
  exact signs.of_listed blank

theorem hexValue_digits {digits : List Char} {code : Nat} (value : hexValue digits = some code) :
    digits.length = 4 ∧ ∀ digit ∈ digits, (hexDigit digit).isSome = true := by
  unfold hexValue at value
  split at value
  · rename_i first second third fourth
    rw [Option.bind_eq_some_iff] at value
    obtain ⟨a, one, value⟩ := value
    rw [Option.bind_eq_some_iff] at value
    obtain ⟨b, two, value⟩ := value
    rw [Option.bind_eq_some_iff] at value
    obtain ⟨c, three, value⟩ := value
    rw [Option.map_eq_some_iff] at value
    obtain ⟨d, four, _⟩ := value
    refine ⟨rfl, ?_⟩
    intro digit member
    simp only [List.mem_cons, List.not_mem_nil, or_false] at member
    rcases member with rfl | rfl | rfl | rfl
    · rw [one]
      rfl
    · rw [two]
      rfl
    · rw [three]
      rfl
    · rw [four]
      rfl
  · cases value

theorem hexValue_ne {digits : List Char} {code : Nat} (value : hexValue digits = some code)
    {sign : Char} (foreign : hexDigit sign = none) : sign ∉ digits := by
  intro member
  have digit := (hexValue_digits value).2 sign member
  rw [foreign] at digit
  cases digit

theorem hexValue_bare {digits : List Char} {code : Nat} (value : hexValue digits = some code) :
    Bare digits := by
  intro char member
  refine ⟨?_, ?_⟩
  · rintro rfl
    exact hexValue_ne value (by decide) member
  · rintro rfl
    exact hexValue_ne value (by decide) member

/-- A reader who is inside the quotes stays there, up to the end of what they hold. -/
theorem Spells.scan {raw text : List Char} (spells : Spells raw text) :
    Json.scan .inside raw = .inside := by
  induction spells with
  | nil => rfl
  | plain quote slash _ _ ih =>
      rw [scan_cons]
      simp only [Quote.next, if_neg quote, if_neg slash]
      exact ih
  | short _ _ ih => exact ih
  | unit value _ ih =>
      show Json.scan .inside (_ ++ _) = _
      rw [scan_append, bare_inside (hexValue_bare value)]
      exact ih
  | pair value other _ _ _ ih =>
      show Json.scan .inside (_ ++ _) = _
      rw [scan_append, bare_inside (hexValue_bare value)]
      show Json.scan .inside (_ ++ _) = _
      rw [scan_append, bare_inside (hexValue_bare other)]
      exact ih

theorem IntText.bare {text : List Char} {value : Int} (literal : IntText text value) :
    Bare text := by
  have spelt : ∀ char ∈ text, char.isDigit = true ∨ char = '-' := by
    rcases literal with rfl | ⟨rfl, _⟩
    · exact fun char member => Numeral.mem_toString member
    · decide
  intro char member
  refine ⟨?_, ?_⟩
  · rintro rfl
    rcases spelt _ member with digit | minus
    · cases digit
    · cases minus
  · rintro rfl
    rcases spelt _ member with digit | minus
    · cases digit
    · cases minus

theorem FloatText.bare {text : List Char} (literal : FloatText text) : Bare text := by
  have signs : Bare "0123456789+-.eE".toList := by
    unfold Bare
    decide
  exact signs.of_listed literal

mutual

/-- A reader who starts outside the quotes ends outside them. -/
theorem Denotes.scan : ∀ {text : List Char} {value : Json}, Denotes text value →
    Json.scan .outside text = .outside
  | _, _, .null => rfl
  | _, _, .true => rfl
  | _, _, .false => rfl
  | _, _, .nan => rfl
  | _, _, .infinity => rfl
  | _, _, .negInfinity => rfl
  | _, _, .int literal => scan_bare literal.bare
  | _, _, .float _ literal => scan_bare literal.bare
  | _, _, .str literal => by
      show Json.scan .inside (_ ++ _) = _
      rw [scan_append, literal.scan]
      rfl
  | _, _, .emptyList white => by
      show Json.scan .outside (_ ++ _) = _
      rw [scan_append, scan_bare white.bare]
      rfl
  | _, _, .list elements => by
      show Json.scan .outside (_ ++ _) = _
      rw [scan_append, elements.scan]
      rfl
  | _, _, .emptyDict white => by
      show Json.scan .outside (_ ++ _) = _
      rw [scan_append, scan_bare white.bare]
      rfl
  | _, _, .dict members => by
      show Json.scan .outside (_ ++ _) = _
      rw [scan_append, members.scan]
      rfl

theorem Items.scan : ∀ {text : List Char} {items : List Json}, Items text items →
    Json.scan .outside text = .outside
  | _, _, .last white element blank => by
      rw [scan_append, scan_append, scan_bare white.bare, element.scan, scan_bare blank.bare]
  | _, _, .cons white element blank rest => by
      rw [scan_append, scan_append, scan_append, scan_bare white.bare, element.scan,
        scan_bare blank.bare]
      exact rest.scan

theorem Members.scan : ∀ {text : List Char} {pairs : List (List Char × Json)},
    Members text pairs → Json.scan .outside text = .outside
  | _, _, .last only => only.scan
  | _, _, .cons first rest => by
      rw [scan_append, first.scan]
      exact rest.scan

theorem Member.scan : ∀ {text : List Char} {pair : List Char × Json}, Member text pair →
    Json.scan .outside text = .outside
  | _, _, @Member.pair before raw key gap later text after value white name blank space element
      last => by
      have opened := name.scan
      have closed := scan_bare blank.bare
      have named : Json.scan .outside (':' :: later) = .outside := by
        show Json.scan .outside later = .outside
        exact scan_bare space.bare
      rw [scan_append, scan_append, scan_append, scan_append, scan_append, scan_bare white.bare]
      show Json.scan (Json.scan (Json.scan (Json.scan (Json.scan .inside _) _) _) _) _ = _
      rw [opened]
      show Json.scan (Json.scan (Json.scan (Json.scan .outside _) _) _) _ = _
      rw [closed, named, element.scan, scan_bare last.bare]

end

def Document (text : List Char) (value : Json) : Prop :=
  ∃ before inner after, Blank before ∧ Denotes inner value ∧ Blank after ∧
    text = before ++ inner ++ after

theorem Document.scan {text : List Char} {value : Json} (document : Document text value) :
    Json.scan .outside text = .outside := by
  obtain ⟨before, inner, after, white, denotes, blank, rfl⟩ := document
  rw [scan_append, scan_append, scan_bare white.bare, denotes.scan, scan_bare blank.bare]

/-! ### Reading from within the quotes -/

/-- How a reader who began inside quotes, taking that for the outside, stands to the reader of
the whole text: on the other side of the quotes, or broken. -/
def Crossed (whole part : Quote) : Prop :=
  (whole = .inside ∧ part = .outside) ∨ (whole = .outside ∧ part = .inside) ∨
    (whole ≠ .broken ∧ part = .broken)

theorem scan_broken (text : List Char) : scan .broken text = .broken := by
  induction text with
  | nil => rfl
  | cons char rest ih => exact ih

theorem Crossed.next {whole part : Quote} (crossed : Crossed whole part) (char : Char)
    (unbroken : whole.next char ≠ .broken) : Crossed (whole.next char) (part.next char) := by
  rcases crossed with ⟨rfl, rfl⟩ | ⟨rfl, rfl⟩ | ⟨_, rfl⟩
  · by_cases quote : char = '"'
    · right
      left
      simp only [Quote.next, if_pos quote, and_self]
    · by_cases slash : char = '\\'
      · right
        right
        simp only [Quote.next, if_neg quote, if_pos slash]
        exact ⟨nofun, trivial⟩
      · left
        simp only [Quote.next, if_neg quote, if_neg slash, and_self]
  · by_cases quote : char = '"'
    · left
      simp only [Quote.next, if_pos quote, and_self]
    · by_cases slash : char = '\\'
      · exact absurd (by simp only [Quote.next, if_neg quote, if_pos slash]) unbroken
      · right
        left
        simp only [Quote.next, if_neg quote, if_neg slash, and_self]
  · exact Or.inr (Or.inr ⟨unbroken, rfl⟩)

theorem Crossed.scan {whole part : Quote} (crossed : Crossed whole part) {text : List Char}
    (unbroken : Json.scan whole text ≠ .broken) :
    Crossed (Json.scan whole text) (Json.scan part text) := by
  induction text generalizing whole part with
  | nil => exact crossed
  | cons char rest ih =>
      have step : whole.next char ≠ .broken := by
        intro broken
        rw [scan_cons, broken, scan_broken] at unbroken
        exact unbroken rfl
      exact ih (crossed.next char step) unbroken

theorem Crossed.end_ne {text : List Char} (closes : Json.scan .inside text = .outside) :
    Json.scan .outside text ≠ .outside := by
  have start : Crossed .inside .outside := Or.inl ⟨rfl, rfl⟩
  have unbroken : Json.scan .inside text ≠ .broken := by
    rw [closes]
    exact nofun
  have crossed := start.scan unbroken
  rw [closes] at crossed
  intro outside
  rw [outside] at crossed
  rcases crossed with ⟨impossible, _⟩ | ⟨_, impossible⟩ | ⟨_, impossible⟩
  · cases impossible
  · cases impossible
  · cases impossible

/-- No part from the start closes the quotes. -/
def Held (raw : List Char) : Prop := ∀ first rest, raw = first ++ rest →
  scan .inside first = .inside ∨ scan .inside first = .escaped

theorem Held.not_outside {raw first rest : List Char} (held : Held raw)
    (split : raw = first ++ rest) : scan .inside first ≠ .outside := by
  rcases held first rest split with inside | escaped
  · rw [inside]
    exact nofun
  · rw [escaped]
    exact nofun

theorem Held.bare_cons {char : Char} {raw : List Char} (quote : char ≠ '"')
    (slash : char ≠ '\\') (held : Held raw) : Held (char :: raw) := by
  intro first rest split
  cases first with
  | nil => exact Or.inl rfl
  | cons head first =>
      obtain ⟨same, remains⟩ := List.cons.inj split
      rw [scan_cons, ← same]
      simp only [Quote.next, if_neg quote, if_neg slash]
      exact held first rest remains

theorem Held.bare_append {digits raw : List Char} (bare : Bare digits) (held : Held raw) :
    Held (digits ++ raw) := by
  induction digits with
  | nil => exact held
  | cons char rest ih =>
      obtain ⟨quote, slash⟩ := bare char (List.mem_cons_self ..)
      apply Held.bare_cons quote slash
      exact ih fun other member => bare other (List.mem_cons_of_mem _ member)

theorem Held.escape {letter : Char} {raw : List Char} (held : Held raw) :
    Held ('\\' :: letter :: raw) := by
  intro first rest split
  cases first with
  | nil => exact Or.inl rfl
  | cons head first =>
      obtain ⟨same, remains⟩ := List.cons.inj split
      rw [← same]
      cases first with
      | nil => exact Or.inr rfl
      | cons next first => exact held first rest (List.cons.inj remains).2

theorem Spells.held {raw text : List Char} (spells : Spells raw text) : Held raw := by
  induction spells with
  | nil =>
      intro first rest split
      rw [(List.append_eq_nil_iff.mp split.symm).1]
      exact Or.inl rfl
  | plain quote slash _ _ ih => exact ih.bare_cons quote slash
  | short _ _ ih => exact ih.escape
  | unit value _ ih => exact (ih.bare_append (hexValue_bare value)).escape
  | pair value other _ _ _ ih =>
      exact ((ih.bare_append (hexValue_bare other)).escape.bare_append (hexValue_bare value)).escape

/-- Between the quotes no other quoted word stands. -/
theorem Held.not_quoted {raw word : List Char} (held : Held raw) (bare : Bare word) :
    ¬('"' :: word ++ ['"']) <:+: raw := by
  rintro ⟨before, after, split⟩
  have regrouped : raw = before ++ ('"' :: word ++ ['"'] ++ after) := by
    rw [← split, List.append_assoc]
  rcases held before _ regrouped with inside | escaped
  · apply @Held.not_outside _ (before ++ ['"']) (word ++ ['"'] ++ after) held
    · rw [regrouped]
      simp only [List.append_assoc, List.cons_append, List.nil_append]
    · rw [scan_append, inside]
      rfl
  · apply held.not_outside split.symm
    rw [scan_append, escaped]
    show scan .inside (word ++ ['"']) = .outside
    rw [scan_append, bare_inside bare]
    rfl

/-- A sign that no escape uses stands between the quotes only where it is spelt, and a sign that
is not printed stands there nowhere. -/
theorem Spells.not_mem {raw text : List Char} (spells : Spells raw text) {sign : Char}
    (slash : sign ≠ '\\') (letter : shortEscape sign = none) (unit : sign ≠ 'u')
    (digit : hexDigit sign = none) (absent : 32 ≤ sign.toNat → sign ∉ text) : sign ∉ raw := by
  induction spells with
  | nil => exact List.not_mem_nil
  | plain _ _ printed _ ih =>
      rw [List.mem_cons, not_or]
      constructor
      · rintro rfl
        exact absent printed (List.mem_cons_self ..)
      · exact ih fun visible member => absent visible (List.mem_cons_of_mem _ member)
  | short escape _ ih =>
      rw [List.mem_cons, List.mem_cons, not_or, not_or]
      refine ⟨slash, ?_, ?_⟩
      · rintro rfl
        rw [letter] at escape
        cases escape
      · exact ih fun visible member => absent visible (List.mem_cons_of_mem _ member)
  | unit value _ ih =>
      rw [List.mem_cons, List.mem_cons, List.mem_append, not_or, not_or, not_or]
      refine ⟨slash, unit, hexValue_ne value digit, ?_⟩
      exact ih fun visible member => absent visible (List.mem_cons_of_mem _ member)
  | pair value other _ _ _ ih =>
      rw [List.mem_cons, List.mem_cons, List.mem_append, List.mem_cons, List.mem_cons,
        List.mem_append, not_or, not_or, not_or, not_or, not_or, not_or]
      refine ⟨slash, unit, hexValue_ne value digit, slash, unit, hexValue_ne other digit, ?_⟩
      exact ih fun visible member => absent visible (List.mem_cons_of_mem _ member)

theorem Spells.no_newline {raw text : List Char} (spells : Spells raw text) : '\n' ∉ raw :=
  spells.not_mem (by decide) rfl (by decide) (by decide) fun printed =>
    absurd printed (by decide)

end Json
