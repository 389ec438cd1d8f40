import Holdem.Lib.Text
import Mathlib.Data.Int.Init

set_option autoImplicit false

/- Python's `int` of a text: white space around it is dropped, a sign may stand before
the digits and single underscores between them. -/
namespace Numeral

/-- The decimal digits with their values and the white space of a character set. On the
digits of ASCII they are what one expects; other scripts have digits of their own. -/
structure Alphabet where
  digit : Char → Option Nat
  space : Char → Bool
  digit_ascii : ∀ char, char.isDigit = true → digit char = some (char.toNat - '0'.toNat)
  space_digit : ∀ char, char.isDigit = true → space char = false
  space_minus : space '-' = false

def Alphabet.ascii : Alphabet where
  digit char := if char.isDigit then some (char.toNat - '0'.toNat) else none
  space char := char.isWhitespace
  digit_ascii := by
    intro char digit
    rw [if_pos digit]
  space_digit := by
    intro char digit
    simp only [Char.isWhitespace, Bool.or_eq_false_iff, decide_eq_false_iff_not]
    refine ⟨⟨⟨?_, ?_⟩, ?_⟩, ?_⟩ <;>
      · rintro rfl
        cases digit
  space_minus := rfl

variable (alphabet : Alphabet)

/-- The digits of a numeral, behind a digit or not; `none` where `int` raises
`ValueError`. -/
def readDigits : Bool → Nat → List Char → Option Nat
  | afterDigit, total, [] => if afterDigit then some total else none
  | afterDigit, total, char :: rest =>
      if afterDigit && char == '_' then readDigits false total rest
      else
        match alphabet.digit char with
        | none => none
        | some value => readDigits true (total * 10 + value) rest

/-- `int(text)`. -/
def parseInt (text : List Char) : Option Int :=
  match Text.strip alphabet.space text with
  | '-' :: digits => (readDigits alphabet false 0 digits).map fun value => -Int.ofNat value
  | '+' :: digits => (readDigits alphabet false 0 digits).map Int.ofNat
  | digits => (readDigits alphabet false 0 digits).map Int.ofNat

variable {alphabet}

theorem readDigits_of_digits {digits : List Char} (plain : ∀ char ∈ digits, char.isDigit = true)
    (afterDigit : Bool) (total : Nat) (present : afterDigit = true ∨ digits ≠ []) :
    readDigits alphabet afterDigit total digits = some (Nat.ofDigitChars 10 digits total) := by
  induction digits generalizing afterDigit total with
  | nil =>
      rcases present with behind | something
      · rw [behind]
        rfl
      · exact absurd rfl something
  | cons char rest ih =>
      have digit := plain char (List.mem_cons_self ..)
      have mark : (char == '_') = false := by
        rw [beq_eq_false_iff_ne]
        rintro rfl
        cases digit
      rw [readDigits, mark, Bool.and_false, if_neg Bool.false_ne_true,
        alphabet.digit_ascii char digit]
      dsimp only
      rw [ih (fun other member => plain other (List.mem_cons_of_mem _ member)) true _ (Or.inl rfl),
        Nat.ofDigitChars_cons, Nat.mul_comm]

theorem strip_eq_self {text : List Char} {space : Char → Bool}
    (plain : ∀ char ∈ text, space char = false) : Text.strip space text = text := by
  have kept : ∀ other : List Char, (∀ char ∈ other, space char = false) →
      other.dropWhile space = other := by
    intro other visible
    cases other with
    | nil => rfl
    | cons char rest => rw [List.dropWhile_cons, if_neg (by simp [visible char])]
  unfold Text.strip
  rw [kept text plain,
    kept text.reverse (fun char member => plain char (List.mem_reverse.mp member)),
    List.reverse_reverse]

theorem isDigit_of_mem_repr {number : Nat} {char : Char} (member : char ∈ number.repr.toList) :
    char.isDigit = true := by
  rw [Nat.toList_repr] at member
  exact Nat.isDigit_of_mem_toDigits (by decide) (by decide) member

/-- No number but 0 is written with a zero in front. -/
theorem eq_zero_of_leading {number : Nat} (leading : number.repr.toList.head? = some '0') :
    number = 0 := by
  rw [Nat.toList_repr] at leading
  induction number using Nat.strongRecOn with
  | ind number ih =>
      by_cases small : number < 10
      · have table : ∀ digit : Fin 10, (Nat.toDigits 10 digit.val).head? = some '0' →
            digit.val = 0 := by decide
        exact table ⟨number, small⟩ leading
      · rw [Nat.toDigits_of_base_le (by decide) (Nat.not_lt.mp small),
          List.head?_append_of_ne_nil _ Nat.toDigits_ne_nil] at leading
        have tens := ih (number / 10) (by omega) leading
        omega

theorem readDigits_repr (number : Nat) :
    readDigits alphabet false 0 number.repr.toList = some number := by
  have present : number.repr.toList ≠ [] := by
    rw [Nat.toList_repr]
    exact Nat.toDigits_ne_nil
  rw [readDigits_of_digits (fun _ => isDigit_of_mem_repr) false 0 (Or.inr present),
    Nat.toList_repr, Nat.ofDigitChars_ten_toDigits]

theorem parseInt_repr (number : Nat) :
    parseInt alphabet number.repr.toList = some (number : Int) := by
  have visible : ∀ char ∈ number.repr.toList, alphabet.space char = false :=
    fun char member => alphabet.space_digit char (isDigit_of_mem_repr member)
  unfold parseInt
  rw [strip_eq_self visible]
  split
  · rename_i digits same
    have digit := @isDigit_of_mem_repr number _ (same ▸ List.mem_cons_self ..)
    cases digit
  · rename_i digits same
    have digit := @isDigit_of_mem_repr number _ (same ▸ List.mem_cons_self ..)
    cases digit
  · rw [readDigits_repr]
    rfl

/-- `int(str(n)) == n`. -/
theorem parseInt_toString (number : Int) :
    parseInt alphabet (toString number).toList = some number := by
  cases number with
  | ofNat count => exact parseInt_repr count
  | negSucc count =>
      have spelt : (toString (Int.negSucc count)).toList = '-' :: (count + 1).repr.toList := by
        show ("-" ++ (count + 1).repr).toList = _
        rw [String.toList_append]
        rfl
      have visible : ∀ char ∈ '-' :: (count + 1).repr.toList, alphabet.space char = false := by
        intro char member
        rcases List.mem_cons.mp member with rfl | digit
        · exact alphabet.space_minus
        · exact alphabet.space_digit char (isDigit_of_mem_repr digit)
      unfold parseInt
      rw [spelt, strip_eq_self visible]
      show (readDigits alphabet false 0 (count + 1).repr.toList).map _ = _
      rw [readDigits_repr]
      rfl

theorem mem_toString {number : Int} {char : Char} (member : char ∈ (toString number).toList) :
    char.isDigit = true ∨ char = '-' := by
  cases number with
  | ofNat count => exact Or.inl (isDigit_of_mem_repr member)
  | negSucc count =>
      have spelt : (toString (Int.negSucc count)).toList = "-".toList ++ (count + 1).repr.toList :=
        String.toList_append
      rw [spelt] at member
      rcases List.mem_append.mp member with sign | digit
      · exact Or.inr (List.mem_singleton.mp sign)
      · exact Or.inl (isDigit_of_mem_repr digit)

theorem toString_inj {first second : Int}
    (same : (toString first).toList = (toString second).toList) : first = second := by
  have read := congrArg (parseInt .ascii) same
  rw [parseInt_toString, parseInt_toString] at read
  exact Option.some.inj read

end Numeral
