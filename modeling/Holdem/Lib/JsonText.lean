import Holdem.Lib.Json

set_option autoImplicit false

/- `json.dumps` and `json.loads`: the text that is written for a value, and how a text is
read from left to right. -/
namespace Json

/-- How `json.dumps` writes: the spaces of one level, if there are lines at all, whether it
keeps to ASCII, and `float.__repr__`. -/
structure Layout where
  indent : Option Nat
  ensureAscii : Bool
  spell : Float64 → List Char

/-! ### Writing -/

def hexChar (digit : Nat) : Char := "0123456789abcdef".toList.getD digit '0'

/-- `'\\u{0:04x}'.format(code)`. -/
def unitText (code : Nat) : List Char :=
  ['\\', 'u', hexChar (code / 4096), hexChar (code / 256 % 16), hexChar (code / 16 % 16),
    hexChar (code % 16)]

/-- `ESCAPE_DCT`, but for the control characters without a letter. -/
def escapeLetter : Char → Option Char
  | '"' => some '"'
  | '\\' => some '\\'
  | '\n' => some 'n'
  | '\r' => some 'r'
  | '\t' => some 't'
  | '\x0c' => some 'f'
  | '\x08' => some 'b'
  | _ => none

def leadUnit (code : Nat) : Nat := 0xD800 + (code - 0x10000) / 0x400

def trailUnit (code : Nat) : Nat := 0xDC00 + (code - 0x10000) % 0x400

def escape (ensureAscii : Bool) (char : Char) : List Char :=
  match escapeLetter char with
  | some letter => ['\\', letter]
  | none =>
      if char.toNat < 32 || ensureAscii && decide (126 < char.toNat) then
        if char.toNat < 0x10000 then unitText char.toNat
        else unitText (leadUnit char.toNat) ++ unitText (trailUnit char.toNat)
      else [char]

def quoted (ensureAscii : Bool) (text : List Char) : List Char :=
  '"' :: (text.flatMap (escape ensureAscii) ++ ['"'])

/-- What stands in front of an element or a closing bracket. -/
def Layout.gap (layout : Layout) (level : Nat) : List Char :=
  match layout.indent with
  | none => []
  | some width => '\n' :: List.replicate (width * level) ' '

def Layout.comma (layout : Layout) (level : Nat) : List Char :=
  ',' :: if layout.indent.isNone then [' '] else layout.gap level

mutual

/-- `json.dumps`, for a value that stands a number of brackets deep. -/
def dumps (layout : Layout) (level : Nat) : Json → List Char
  | .null => "null".toList
  | .bool true => "true".toList
  | .bool false => "false".toList
  | .int value => (toString value).toList
  | .float value => layout.spell value
  | .str text => quoted layout.ensureAscii text
  | .list [] => "[]".toList
  | .list (item :: rest) =>
      '[' :: (layout.gap (level + 1) ++ dumps layout (level + 1) item ++
        dumpsItems layout (level + 1) rest ++ layout.gap level ++ [']'])
  | .dict [] => "\x7b\x7d".toList
  | .dict ((key, value) :: rest) =>
      '\x7b' :: (layout.gap (level + 1) ++ quoted layout.ensureAscii key ++ ": ".toList ++
        dumps layout (level + 1) value ++ dumpsMembers layout (level + 1) rest ++
        layout.gap level ++ ['\x7d'])

def dumpsItems (layout : Layout) (level : Nat) : List Json → List Char
  | [] => []
  | item :: rest =>
      layout.comma level ++ dumps layout level item ++ dumpsItems layout level rest

def dumpsMembers (layout : Layout) (level : Nat) : List (List Char × Json) → List Char
  | [] => []
  | (key, value) :: rest =>
      layout.comma level ++ quoted layout.ensureAscii key ++ ": ".toList ++
        dumps layout level value ++ dumpsMembers layout level rest

end

/-! ### Reading -/

/-- The code units up to the closing quote, and what follows it. -/
def readUnits : List Char → Option (List Nat × List Char)
  | [] => none
  | '"' :: rest => some ([], rest)
  | '\\' :: 'u' :: first :: second :: third :: fourth :: rest =>
      match hexValue [first, second, third, fourth], readUnits rest with
      | some code, some read => some (code :: read.1, read.2)
      | _, _ => none
  | '\\' :: letter :: rest =>
      match shortEscape letter, readUnits rest with
      | some char, some read => some (char.toNat :: read.1, read.2)
      | _, _ => none
  | char :: rest =>
      if char.toNat < 32 then none
      else (readUnits rest).map fun read => (char.toNat :: read.1, read.2)

/-- Surrogate pairs are put together. Half of one is no character, and is read here as the
character of code 0. -/
def joinUnits : List Nat → List Char
  | first :: second :: rest =>
      if 0xD800 ≤ first ∧ first < 0xDC00 ∧ 0xDC00 ≤ second ∧ second < 0xE000 then
        Char.ofNat (0x10000 + (first - 0xD800) * 0x400 + (second - 0xDC00)) :: joinUnits rest
      else Char.ofNat first :: joinUnits (second :: rest)
  | [last] => [Char.ofNat last]
  | [] => []

/-- `scanstring`, behind the opening quote. -/
def readText (text : List Char) : Option (List Char × List Char) :=
  (readUnits text).map fun read => (joinUnits read.1, read.2)

/-- `\.[0-9]+`, where it matches. -/
def readFraction : List Char → List Char × List Char
  | '.' :: digit :: rest =>
      if digit.isDigit then ('.' :: digit :: rest.takeWhile Char.isDigit, rest.dropWhile Char.isDigit)
      else ([], '.' :: digit :: rest)
  | text => ([], text)

/-- `[0-9]+` behind an exponent's letter and sign. -/
def readPower (opening whole : List Char) : List Char → List Char × List Char
  | digit :: rest =>
      if digit.isDigit then
        (opening ++ digit :: rest.takeWhile Char.isDigit, rest.dropWhile Char.isDigit)
      else ([], whole)
  | [] => ([], whole)

/-- `[eE][-+]?[0-9]+`, where it matches. -/
def readExponent (text : List Char) : List Char × List Char :=
  match text with
  | [] => ([], [])
  | letter :: rest =>
      if letter = 'e' ∨ letter = 'E' then
        match rest with
        | '-' :: digits => readPower [letter, '-'] text digits
        | '+' :: digits => readPower [letter, '+'] text digits
        | digits => readPower [letter] text digits
      else ([], text)

/-- `NUMBER_RE` behind the sign; `float` of a text is a parameter. -/
def readUnsigned (float : List Char → Float64) (sign : List Char) (text : List Char) :
    Option (Json × List Char) :=
  match text with
  | [] => none
  | digit :: rest =>
      if digit.isDigit then
        let whole := if digit = '0' then (['0'], rest)
          else (digit :: rest.takeWhile Char.isDigit, rest.dropWhile Char.isDigit)
        let fraction := readFraction whole.2
        let exponent := readExponent fraction.2
        if fraction.1 = [] ∧ exponent.1 = [] then
          let value := Int.ofNat (Nat.ofDigitChars 10 whole.1 0)
          some (.int (if sign = [] then value else -value), whole.2)
        else some (.float (float (sign ++ whole.1 ++ fraction.1 ++ exponent.1)), exponent.2)
      else none

def readNumber (float : List Char → Float64) : List Char → Option (Json × List Char)
  | '-' :: rest => readUnsigned float ['-'] rest
  | text => readUnsigned float [] text

def readAtom (float : List Char → Float64) (text : List Char) : Option (Json × List Char) :=
  if "null".toList.isPrefixOf text then some (.null, text.drop 4)
  else if "true".toList.isPrefixOf text then some (.bool true, text.drop 4)
  else if "false".toList.isPrefixOf text then some (.bool false, text.drop 5)
  else
    match readNumber float text with
    | some read => some read
    | none =>
        if "NaN".toList.isPrefixOf text then some (.float .nan, text.drop 3)
        else if "Infinity".toList.isPrefixOf text then some (.float .infinity, text.drop 8)
        else if "-Infinity".toList.isPrefixOf text then some (.float .negInfinity, text.drop 9)
        else none

/-- `WHITESPACE.match(text).end()`. -/
def skipBlank (text : List Char) : List Char :=
  text.dropWhile fun char => [' ', '\t', '\n', '\r'].contains char

/-- A key with its colon, up to the value. -/
def readKey : List Char → Option (List Char × List Char)
  | '"' :: rest =>
      match readText rest with
      | none => none
      | some (key, after) =>
          match skipBlank after with
          | ':' :: gap => some (key, skipBlank gap)
          | _ => none
  | _ => none

mutual

/-- `scan_once`. The number bounds how deep and how long the value is. -/
def readValue (float : List Char → Float64) : Nat → List Char → Option (Json × List Char)
  | 0, _ => none
  | _ + 1, [] => none
  | fuel + 1, char :: rest =>
      if char = '"' then (readText rest).map fun read => (.str read.1, read.2)
      else if char = '\x7b' then
        if (skipBlank rest).head? = some '\x7d' then some (.dict [], (skipBlank rest).tail)
        else (readMembers float fuel (skipBlank rest)).map fun read =>
          (.dict (Dict.ofPairs read.1), read.2)
      else if char = '[' then
        if (skipBlank rest).head? = some ']' then some (.list [], (skipBlank rest).tail)
        else (readItems float fuel (skipBlank rest)).map fun read => (.list read.1, read.2)
      else readAtom float (char :: rest)

/-- `JSONArray`, from an element on. -/
def readItems (float : List Char → Float64) : Nat → List Char → Option (List Json × List Char)
  | 0, _ => none
  | fuel + 1, text =>
      match readValue float fuel text with
      | none => none
      | some (value, after) =>
          match skipBlank after with
          | ']' :: rest => some ([value], rest)
          | ',' :: rest =>
              (readItems float fuel (skipBlank rest)).map fun read => (value :: read.1, read.2)
          | _ => none

/-- `JSONObject`, from a key on. -/
def readMembers (float : List Char → Float64) :
    Nat → List Char → Option (List (List Char × Json) × List Char)
  | 0, _ => none
  | fuel + 1, text =>
      match readKey text with
      | none => none
      | some (key, after) =>
          match readValue float fuel after with
          | none => none
          | some (value, behind) =>
              match skipBlank behind with
              | '\x7d' :: rest => some ([(key, value)], rest)
              | ',' :: rest =>
                  (readMembers float fuel (skipBlank rest)).map fun read =>
                    ((key, value) :: read.1, read.2)
              | _ => none

end

/-- `json.loads`; `none` is `JSONDecodeError`. -/
def loads (float : List Char → Float64) (text : List Char) : Option Json :=
  match readValue float (text.length + 1) (skipBlank text) with
  | none => none
  | some (value, rest) => if skipBlank rest = [] then some value else none

/-! ### A text comes back -/

theorem hexDigit_hexChar {digit : Nat} (small : digit < 16) :
    hexDigit (hexChar digit) = some digit := by
  have table : ∀ digit : Fin 16, hexDigit (hexChar digit) = some digit.val := by decide
  exact table ⟨digit, small⟩

theorem hexValue_unitText {code : Nat} (small : code < 0x10000) :
    hexValue [hexChar (code / 4096), hexChar (code / 256 % 16), hexChar (code / 16 % 16),
      hexChar (code % 16)] = some code := by
  unfold hexValue
  dsimp only
  rw [hexDigit_hexChar (by omega), hexDigit_hexChar (by omega), hexDigit_hexChar (by omega),
    hexDigit_hexChar (by omega)]
  simp only [Option.bind_some, Option.map_some, Option.some.injEq]
  omega

theorem readUnits_unitText {code : Nat} (small : code < 0x10000) {rest after : List Char}
    {codes : List Nat} (read : readUnits rest = some (codes, after)) :
    readUnits (unitText code ++ rest) = some (code :: codes, after) := by
  simp only [unitText, List.cons_append, List.nil_append, readUnits, hexValue_unitText small, read]

theorem escapeLetter_spec {char letter : Char} (short : escapeLetter char = some letter) :
    letter ≠ 'u' ∧ shortEscape letter = some char ∧ char.toNat < 0x10000 := by
  unfold escapeLetter at short
  split at short
  all_goals cases short
  all_goals decide

def unitsOf (ensureAscii : Bool) (char : Char) : List Nat :=
  if ensureAscii && decide (0x10000 ≤ char.toNat) then
    [leadUnit char.toNat, trailUnit char.toNat]
  else [char.toNat]

theorem unitsOf_low (ensureAscii : Bool) {char : Char} (low : char.toNat < 0x10000) :
    unitsOf ensureAscii char = [char.toNat] := by
  unfold unitsOf
  rw [if_neg]
  simp only [Bool.and_eq_true, decide_eq_true_eq, not_and]
  exact fun _ => Nat.not_le.mpr low

theorem toNat_cases (char : Char) :
    char.toNat < 0xD800 ∨ 0xE000 ≤ char.toNat ∧ char.toNat < 0x110000 := by
  rcases char.valid with low | ⟨above, below⟩
  · exact Or.inl low
  · exact Or.inr ⟨above, below⟩

theorem surrogates {char : Char} (wide : 0x10000 ≤ char.toNat) :
    (0xD800 ≤ leadUnit char.toNat ∧ leadUnit char.toNat < 0xDC00) ∧
      (0xDC00 ≤ trailUnit char.toNat ∧ trailUnit char.toNat < 0xE000) ∧
      Char.ofNat (0x10000 + (leadUnit char.toNat - 0xD800) * 0x400 +
        (trailUnit char.toNat - 0xDC00)) = char := by
  have range := toNat_cases char
  have whole : 0x10000 + (leadUnit char.toNat - 0xD800) * 0x400 +
      (trailUnit char.toNat - 0xDC00) = char.toNat := by
    unfold leadUnit trailUnit
    omega
  rw [whole, Char.ofNat_toNat]
  unfold leadUnit trailUnit
  refine ⟨?_, ?_, rfl⟩ <;> omega

theorem readUnits_letter {letter char : Char} {rest after : List Char} {codes : List Nat}
    (apart : letter ≠ 'u') (short : shortEscape letter = some char)
    (read : readUnits rest = some (codes, after)) :
    readUnits ('\\' :: letter :: rest) = some (char.toNat :: codes, after) := by
  rw [readUnits]
  · rw [short, read]
  · intro first second third fourth more same
    exact absurd same apart

theorem readUnits_plain {char : Char} {rest after : List Char} {codes : List Nat}
    (quote : char ≠ '"') (slash : char ≠ '\\') (printed : 32 ≤ char.toNat)
    (read : readUnits rest = some (codes, after)) :
    readUnits (char :: rest) = some (char.toNat :: codes, after) := by
  rw [readUnits]
  · rw [if_neg (Nat.not_lt.mpr printed), read]
    rfl
  · exact quote
  · intro first second third fourth more same
    exact absurd same slash
  · intro letter more same
    exact absurd same slash

theorem readUnits_escape (ensureAscii : Bool) (char : Char) {rest after : List Char}
    {codes : List Nat} (read : readUnits rest = some (codes, after)) :
    readUnits (escape ensureAscii char ++ rest) =
      some (unitsOf ensureAscii char ++ codes, after) := by
  unfold escape
  cases short : escapeLetter char with
  | some letter =>
      obtain ⟨apart, back, low⟩ := escapeLetter_spec short
      rw [unitsOf_low ensureAscii low]
      exact readUnits_letter apart back read
  | none =>
      dsimp only
      have quote : char ≠ '"' := by
        rintro rfl
        cases short
      have slash : char ≠ '\\' := by
        rintro rfl
        cases short
      by_cases escaped : (decide (char.toNat < 32) || ensureAscii && decide (126 < char.toNat)) = true
      · rw [if_pos escaped]
        by_cases low : char.toNat < 0x10000
        · rw [if_pos low, unitsOf_low ensureAscii low]
          exact readUnits_unitText low read
        · rw [if_neg low]
          have ascii : ensureAscii = true := by
            simp only [Bool.or_eq_true, decide_eq_true_eq, Bool.and_eq_true] at escaped
            rcases escaped with control | ⟨ascii, _⟩
            · omega
            · exact ascii
          have both : unitsOf ensureAscii char = [leadUnit char.toNat, trailUnit char.toNat] := by
            unfold unitsOf
            rw [ascii, Bool.true_and, if_pos (decide_eq_true (Nat.not_lt.mp low))]
          obtain ⟨⟨_, lead⟩, ⟨_, trail⟩, _⟩ := surrogates (Nat.not_lt.mp low)
          rw [both, List.append_assoc]
          exact readUnits_unitText (by omega) (readUnits_unitText (by omega) read)
      · rw [if_neg escaped]
        simp only [Bool.or_eq_true, decide_eq_true_eq, Bool.and_eq_true, not_or, not_and] at escaped
        have single : unitsOf ensureAscii char = [char.toNat] := by
          unfold unitsOf
          rw [if_neg]
          simp only [Bool.and_eq_true, decide_eq_true_eq, not_and]
          intro ascii
          have := escaped.2 ascii
          omega
        rw [single]
        exact readUnits_plain quote slash (by omega) read

theorem joinUnits_unitsOf (ensureAscii : Bool) (char : Char) (codes : List Nat) :
    joinUnits (unitsOf ensureAscii char ++ codes) = char :: joinUnits codes := by
  have range := toNat_cases char
  unfold unitsOf
  split
  · rename_i wide
    simp only [Bool.and_eq_true, decide_eq_true_eq] at wide
    obtain ⟨⟨low, high⟩, ⟨first, last⟩, whole⟩ := surrogates wide.2
    rw [List.cons_append, List.cons_append, List.nil_append, joinUnits,
      if_pos ⟨low, high, first, last⟩, whole]
  · have lone : ¬(0xD800 ≤ char.toNat ∧ char.toNat < 0xDC00) := by omega
    cases codes with
    | nil =>
        rw [List.append_nil, joinUnits, Char.ofNat_toNat]
        rfl
    | cons code rest =>
        rw [List.cons_append, List.nil_append, joinUnits, if_neg, Char.ofNat_toNat]
        exact fun pair => lone ⟨pair.1, pair.2.1⟩

theorem readText_escape (ensureAscii : Bool) (text rest : List Char) :
    readText (text.flatMap (escape ensureAscii) ++ '"' :: rest) = some (text, rest) := by
  have units : readUnits (text.flatMap (escape ensureAscii) ++ '"' :: rest) =
      some (text.flatMap (unitsOf ensureAscii), rest) := by
    induction text with
    | nil => rfl
    | cons char text ih =>
        rw [List.flatMap_cons, List.flatMap_cons, List.append_assoc]
        exact readUnits_escape ensureAscii char ih
  have joined : joinUnits (text.flatMap (unitsOf ensureAscii)) = text := by
    clear units
    induction text with
    | nil => rfl
    | cons char text ih => rw [List.flatMap_cons, joinUnits_unitsOf, ih]
  unfold readText
  rw [units, Option.map_some, joined]

theorem spells_escape (ensureAscii : Bool) (text : List Char) :
    Spells (text.flatMap (escape ensureAscii)) text := by
  induction text with
  | nil => exact .nil
  | cons char text ih =>
      rw [List.flatMap_cons]
      unfold escape
      cases short : escapeLetter char with
      | some letter => exact .short (escapeLetter_spec short).2.1 ih
      | none =>
          dsimp only
          have quote : char ≠ '"' := by
            rintro rfl
            cases short
          have slash : char ≠ '\\' := by
            rintro rfl
            cases short
          split
          · split
            · rename_i low
              have spelt := Spells.unit (hexValue_unitText low) ih
              rw [Char.ofNat_toNat] at spelt
              exact spelt
            · rename_i high
              obtain ⟨⟨low, leads⟩, ⟨first, trails⟩, whole⟩ := surrogates (Nat.not_lt.mp high)
              have lead : leadUnit char.toNat < 0x10000 := by omega
              have trail : trailUnit char.toNat < 0x10000 := by omega
              have spelt := Spells.pair (hexValue_unitText lead) (hexValue_unitText trail)
                ⟨low, leads⟩ ⟨first, trails⟩ ih
              rw [whole] at spelt
              exact spelt
          · rename_i printed
            simp only [Bool.or_eq_true, decide_eq_true_eq, not_or, Nat.not_lt] at printed
            exact .plain quote slash printed.1 ih

/-- A closing brace is escaped by nobody, and stands in no escape. -/
theorem brace_not_mem_escape (ensureAscii : Bool) {text : List Char} (absent : '\x7d' ∉ text) :
    '\x7d' ∉ text.flatMap (escape ensureAscii) := by
  intro member
  obtain ⟨char, inside, written⟩ := List.mem_flatMap.mp member
  have digits : ∀ digit, hexChar digit ≠ '\x7d' := by
    intro digit same
    by_cases small : digit < 16
    · have read := hexDigit_hexChar small
      rw [same] at read
      cases read
    · have fallback : hexChar digit = '0' := by
        unfold hexChar
        rw [List.getD_eq_getElem?_getD, List.getElem?_eq_none (Nat.not_lt.mp small)]
        rfl
      rw [fallback] at same
      cases same
  have units : ∀ code, '\x7d' ∉ unitText code := by
    intro code
    simp only [unitText, List.mem_cons, List.not_mem_nil, or_false, not_or]
    exact ⟨by decide, by decide, (digits _).symm, (digits _).symm, (digits _).symm,
      (digits _).symm⟩
  unfold escape at written
  cases short : escapeLetter char with
  | some letter =>
      rw [short] at written
      simp only [List.mem_cons, List.not_mem_nil, or_false] at written
      rcases written with slash | same
      · cases slash
      · have back := (escapeLetter_spec short).2.1
        rw [← same] at back
        cases back
  | none =>
      rw [short] at written
      dsimp only at written
      split at written
      · split at written
        · exact units _ written
        · rcases List.mem_append.mp written with lead | trail
          · exact units _ lead
          · exact units _ trail
      · rw [List.mem_singleton.mp written] at absent
        exact absent inside

/-! ### A number comes back -/

/-- What may follow a number, so that the number ends there. -/
def Ends (rest : List Char) : Prop :=
  ∀ char ∈ rest.head?, char.isDigit = false ∧ char ≠ '.' ∧ char ≠ 'e' ∧ char ≠ 'E'

theorem readFraction_ends {rest : List Char} (ends : Ends rest) : readFraction rest = ([], rest) := by
  cases rest with
  | nil => rfl
  | cons char more =>
      rw [readFraction]
      intro digit after same
      exact (ends char rfl).2.1 (List.cons.inj same).1

theorem readExponent_ends {rest : List Char} (ends : Ends rest) : readExponent rest = ([], rest) := by
  cases rest with
  | nil => rfl
  | cons char more =>
      obtain ⟨_, _, small, large⟩ := ends char rfl
      unfold readExponent
      dsimp only
      rw [if_neg (not_or.mpr ⟨small, large⟩)]

theorem span_digits {digits rest : List Char} (plain : ∀ char ∈ digits, char.isDigit = true)
    (ends : Ends rest) :
    (digits ++ rest).takeWhile Char.isDigit = digits ∧
      (digits ++ rest).dropWhile Char.isDigit = rest := by
  rw [List.takeWhile_append_of_pos plain, List.dropWhile_append_of_pos plain]
  cases rest with
  | nil => exact ⟨List.append_nil _, rfl⟩
  | cons char more =>
      have other := (ends char rfl).1
      rw [List.takeWhile_cons, List.dropWhile_cons, other]
      exact ⟨List.append_nil _, rfl⟩

theorem readUnsigned_repr (float : List Char → Float64) (sign : List Char) (number : Nat)
    {rest : List Char} (ends : Ends rest) :
    readUnsigned float sign (number.repr.toList ++ rest) =
      some (.int (if sign = [] then number else -(number : Int)), rest) := by
  have plain : ∀ char ∈ number.repr.toList, char.isDigit = true :=
    fun char member => Numeral.isDigit_of_mem_repr member
  have value : Nat.ofDigitChars 10 number.repr.toList 0 = number := by
    rw [Nat.toList_repr, Nat.ofDigitChars_ten_toDigits]
  cases spelt : number.repr.toList with
  | nil =>
      rw [Nat.toList_repr] at spelt
      exact absurd spelt Nat.toDigits_ne_nil
  | cons digit digits =>
      rw [spelt] at plain value
      have whole : (if digit = '0' then (['0'], digits ++ rest)
          else (digit :: (digits ++ rest).takeWhile Char.isDigit,
            (digits ++ rest).dropWhile Char.isDigit)) = (digit :: digits, rest) := by
        by_cases zero : digit = '0'
        · have none : number = 0 := Numeral.eq_zero_of_leading (by rw [spelt, zero]; rfl)
          rw [none] at spelt
          cases spelt
          rfl
        · obtain ⟨taken, left⟩ :=
            span_digits (fun char member => plain char (List.mem_cons_of_mem _ member)) ends
          rw [if_neg zero, taken, left]
      rw [List.cons_append, readUnsigned, if_pos (plain digit (List.mem_cons_self ..))]
      dsimp only
      rw [whole]
      dsimp only
      rw [readFraction_ends ends]
      dsimp only
      rw [readExponent_ends ends, if_pos ⟨rfl, rfl⟩, value]
      rfl

theorem readNumber_toString (float : List Char → Float64) (number : Int) {rest : List Char}
    (ends : Ends rest) :
    readNumber float ((toString number).toList ++ rest) = some (.int number, rest) := by
  cases number with
  | ofNat count =>
      have read := readUnsigned_repr float [] count ends
      show readNumber float (count.repr.toList ++ rest) = _
      cases spelt : count.repr.toList with
      | nil =>
          rw [Nat.toList_repr] at spelt
          exact absurd spelt Nat.toDigits_ne_nil
      | cons digit digits =>
          have plain := @Numeral.isDigit_of_mem_repr count digit (spelt ▸ List.mem_cons_self ..)
          rw [List.cons_append, readNumber, ← List.cons_append, ← spelt, read]
          · rfl
          · intro more same
            rw [(List.cons.inj same).1] at plain
            cases plain
  | negSucc count =>
      have spelt : (toString (Int.negSucc count)).toList = '-' :: (count + 1).repr.toList := by
        show ("-" ++ (count + 1).repr).toList = _
        rw [String.toList_append]
        rfl
      rw [spelt]
      exact readUnsigned_repr float ['-'] (count + 1) ends

/-! ### A value comes back -/

mutual

/-- A value without floats, all of whose dictionaries have each key once. -/
def Plain : Json → Prop
  | .float _ => False
  | .list items => PlainItems items
  | .dict entries => (entries.map Prod.fst).Nodup ∧ PlainMembers entries
  | _ => True

def PlainItems : List Json → Prop
  | [] => True
  | item :: rest => Plain item ∧ PlainItems rest

def PlainMembers : List (List Char × Json) → Prop
  | [] => True
  | (_, value) :: rest => Plain value ∧ PlainMembers rest

end

theorem plainItems_iff {items : List Json} : PlainItems items ↔ ∀ item ∈ items, item.Plain := by
  induction items with
  | nil => simp [PlainItems]
  | cons item rest ih => simp [PlainItems, ih]

/-- A token starts here. -/
def Starts (text : List Char) : Prop :=
  ∃ char rest, text = char :: rest ∧ char ∉ [' ', '\t', '\n', '\r']

theorem skipBlank_starts {text : List Char} (starts : Starts text) : skipBlank text = text := by
  obtain ⟨char, rest, rfl, visible⟩ := starts
  unfold skipBlank
  rw [List.dropWhile_cons, if_neg]
  exact fun white => visible (List.contains_iff_mem.mp white)

theorem skipBlank_append {white text : List Char} (blank : Blank white) (starts : Starts text) :
    skipBlank (white ++ text) = text := by
  unfold skipBlank
  rw [List.dropWhile_append_of_pos]
  · exact skipBlank_starts starts
  · exact fun char member => List.contains_iff_mem.mpr (blank char member)

theorem blank_gap (layout : Layout) (level : Nat) : Blank (layout.gap level) := by
  unfold Layout.gap
  cases layout.indent with
  | none => exact fun char member => by cases member
  | some width =>
      intro char member
      rcases List.mem_cons.mp member with rfl | space
      · decide
      · rw [List.eq_of_mem_replicate space]
        decide

theorem comma_eq (layout : Layout) (level : Nat) :
    ∃ white, layout.comma level = ',' :: white ∧ Blank white := by
  unfold Layout.comma
  split
  · refine ⟨_, rfl, ?_⟩
    intro char member
    rw [List.mem_singleton.mp member]
    decide
  · exact ⟨_, rfl, blank_gap layout level⟩

theorem ends_blank {white rest : List Char} (blank : Blank white) (ends : Ends rest) :
    Ends (white ++ rest) := by
  cases white with
  | nil => exact ends
  | cons char more =>
      intro first head
      cases head
      have white := blank char (List.mem_cons_self ..)
      simp only [List.mem_cons, List.not_mem_nil, or_false] at white
      rcases white with rfl | rfl | rfl | rfl
      all_goals decide

theorem toString_starts (number : Int) :
    ∃ char rest, (toString number).toList = char :: rest ∧
      (char.isDigit = true ∨ char = '-') := by
  cases spelt : (toString number).toList with
  | nil =>
      have read := @Numeral.parseInt_toString .ascii number
      rw [spelt] at read
      cases read
  | cons char rest =>
      exact ⟨char, rest, rfl, Numeral.mem_toString (spelt ▸ List.mem_cons_self ..)⟩

theorem dumps_starts (layout : Layout) (level : Nat) {value : Json} (plain : value.Plain) :
    ∃ char rest, dumps layout level value = char :: rest ∧
      char ∉ [' ', '\t', '\n', '\r'] ∧ char ≠ ']' ∧ char ≠ '\x7d' := by
  cases value with
  | null => exact ⟨_, _, rfl, by decide⟩
  | bool value => cases value <;> exact ⟨_, _, rfl, by decide⟩
  | int value =>
      obtain ⟨char, rest, spelt, first⟩ := toString_starts value
      refine ⟨char, rest, spelt, ?_⟩
      rcases first with digit | rfl
      · refine ⟨?_, ?_, ?_⟩
        · intro white
          simp only [List.mem_cons, List.not_mem_nil, or_false] at white
          rcases white with rfl | rfl | rfl | rfl
          all_goals cases digit
        · rintro rfl
          cases digit
        · rintro rfl
          cases digit
      · decide
  | float value => exact absurd plain (by simp [Plain])
  | str text => exact ⟨_, _, rfl, by decide⟩
  | list items => cases items <;> exact ⟨_, _, rfl, by decide⟩
  | dict entries => cases entries <;> exact ⟨_, _, rfl, by decide⟩

theorem readValue_int (float : List Char → Float64) (fuel : Nat) (number : Int)
    {rest : List Char} (ends : Ends rest) :
    readValue float (fuel + 1) ((toString number).toList ++ rest) = some (.int number, rest) := by
  have read := readNumber_toString float number ends
  obtain ⟨char, more, spelt, first⟩ := toString_starts number
  rw [spelt, List.cons_append] at read ⊢
  have other : ∀ sign : Char, sign.isDigit = false → sign ≠ '-' → char ≠ sign := by
    rintro sign letter apart rfl
    rcases first with digit | minus
    · rw [letter] at digit
      cases digit
    · exact apart minus
  have foreign : ∀ (sign : Char) (word : List Char), sign.isDigit = false → sign ≠ '-' →
      (sign :: word).isPrefixOf (char :: (more ++ rest)) = false := by
    intro sign word letter apart
    rw [List.isPrefixOf_cons_cons, beq_eq_false_iff_ne.mpr (other sign letter apart).symm,
      Bool.false_and]
  rw [readValue, if_neg (other '"' rfl (by decide)), if_neg (other '\x7b' rfl (by decide)),
    if_neg (other '[' rfl (by decide))]
  unfold readAtom
  rw [show "null".toList = 'n' :: "ull".toList from rfl,
    show "true".toList = 't' :: "rue".toList from rfl,
    show "false".toList = 'f' :: "alse".toList from rfl,
    foreign 'n' _ rfl (by decide), foreign 't' _ rfl (by decide), foreign 'f' _ rfl (by decide),
    read]
  rfl

theorem readValue_word (float : List Char → Float64) (fuel : Nat) (rest : List Char) :
    readValue float (fuel + 1) ("null".toList ++ rest) = some (.null, rest) ∧
      readValue float (fuel + 1) ("true".toList ++ rest) = some (.bool true, rest) ∧
      readValue float (fuel + 1) ("false".toList ++ rest) = some (.bool false, rest) :=
  ⟨rfl, rfl, rfl⟩

theorem readValue_str (float : List Char → Float64) (fuel : Nat) (ensureAscii : Bool)
    (text rest : List Char) :
    readValue float (fuel + 1) (quoted ensureAscii text ++ rest) = some (.str text, rest) := by
  have read := readText_escape ensureAscii text rest
  unfold quoted
  rw [List.cons_append, List.append_assoc, List.singleton_append, readValue, if_pos rfl, read]
  rfl

theorem readKey_quoted (ensureAscii : Bool) (key : List Char) {rest : List Char}
    (starts : Starts rest) :
    readKey (quoted ensureAscii key ++ ": ".toList ++ rest) = some (key, rest) := by
  have read := readText_escape ensureAscii key (": ".toList ++ rest)
  have space : Blank [' '] := by
    unfold Blank
    decide
  have gap : skipBlank (' ' :: rest) = rest := skipBlank_append space starts
  unfold quoted
  rw [List.append_assoc, List.cons_append, List.append_assoc, List.singleton_append, readKey, read]
  show (match skipBlank (':' :: ' ' :: rest) with
    | ':' :: gap => some (key, skipBlank gap)
    | _ => none) = _
  rw [skipBlank_starts ⟨':', ' ' :: rest, rfl, by decide⟩]
  show some (key, skipBlank (' ' :: rest)) = _
  rw [gap]

section Steps

variable {float : List Char → Float64} {fuel : Nat} {text white body rest : List Char}

theorem readValue_list {items : List Json} (blank : Blank white) (starts : Starts body)
    (opened : body.head? ≠ some ']') (read : readItems float fuel body = some (items, rest)) :
    readValue float (fuel + 1) ('[' :: (white ++ body)) = some (.list items, rest) := by
  rw [readValue, if_neg (by decide), if_neg (by decide), if_pos rfl, skipBlank_append blank starts,
    if_neg opened, read]
  rfl

theorem readValue_dict {entries : List (List Char × Json)} (blank : Blank white)
    (starts : Starts body) (opened : body.head? ≠ some '\x7d')
    (read : readMembers float fuel body = some (entries, rest)) :
    readValue float (fuel + 1) ('\x7b' :: (white ++ body)) =
      some (.dict (Dict.ofPairs entries), rest) := by
  rw [readValue, if_neg (by decide), if_pos rfl, skipBlank_append blank starts, if_neg opened, read]
  rfl

theorem readItems_last {item : Json} (blank : Blank white)
    (read : readValue float fuel text = some (item, white ++ ']' :: rest)) :
    readItems float (fuel + 1) text = some ([item], rest) := by
  rw [readItems, read]
  dsimp only
  rw [skipBlank_append blank ⟨']', rest, rfl, by decide⟩]
  rfl

theorem readItems_cons {item : Json} {items : List Json} (blank : Blank white)
    (starts : Starts body) (read : readValue float fuel text = some (item, ',' :: (white ++ body)))
    (more : readItems float fuel body = some (items, rest)) :
    readItems float (fuel + 1) text = some (item :: items, rest) := by
  rw [readItems, read]
  dsimp only
  rw [skipBlank_starts ⟨',', white ++ body, rfl, by decide⟩]
  show (readItems float fuel (skipBlank (white ++ body))).map _ = _
  rw [skipBlank_append blank starts, more]
  rfl

theorem readMembers_last {key after : List Char} {value : Json} (blank : Blank white)
    (named : readKey text = some (key, after))
    (read : readValue float fuel after = some (value, white ++ '\x7d' :: rest)) :
    readMembers float (fuel + 1) text = some ([(key, value)], rest) := by
  rw [readMembers, named]
  dsimp only
  rw [read]
  dsimp only
  rw [skipBlank_append blank ⟨'\x7d', rest, rfl, by decide⟩]
  rfl

theorem readMembers_cons {key after : List Char} {value : Json}
    {entries : List (List Char × Json)} (blank : Blank white) (starts : Starts body)
    (named : readKey text = some (key, after))
    (read : readValue float fuel after = some (value, ',' :: (white ++ body)))
    (more : readMembers float fuel body = some (entries, rest)) :
    readMembers float (fuel + 1) text = some ((key, value) :: entries, rest) := by
  rw [readMembers, named]
  dsimp only
  rw [read]
  dsimp only
  rw [skipBlank_starts ⟨',', white ++ body, rfl, by decide⟩]
  show (readMembers float fuel (skipBlank (white ++ body))).map _ = _
  rw [skipBlank_append blank starts, more]
  rfl

end Steps

theorem Starts.append {text : List Char} (starts : Starts text) (rest : List Char) :
    Starts (text ++ rest) := by
  obtain ⟨char, more, rfl, visible⟩ := starts
  exact ⟨char, more ++ rest, rfl, visible⟩

theorem starts_dumps (layout : Layout) (level : Nat) {value : Json} (plain : value.Plain) :
    Starts (dumps layout level value) := by
  obtain ⟨char, rest, spelt, visible, _⟩ := dumps_starts layout level plain
  exact ⟨char, rest, spelt, visible⟩

theorem ends_comma (rest : List Char) : Ends (',' :: rest) := by
  intro char head
  cases head
  decide

theorem ends_close {white : List Char} (blank : Blank white) (rest : List Char) :
    Ends (white ++ ']' :: rest) ∧ Ends (white ++ '\x7d' :: rest) := by
  refine ⟨ends_blank blank ?_, ends_blank blank ?_⟩ <;>
    · intro char head
      cases head
      decide

theorem starts_member (layout : Layout) (key rest : List Char) :
    Starts (quoted layout.ensureAscii key ++ ": ".toList ++ rest) ∧
      (quoted layout.ensureAscii key ++ ": ".toList ++ rest).head? = some '"' :=
  ⟨⟨'"', key.flatMap (escape layout.ensureAscii) ++ ['"'] ++ ": ".toList ++ rest, rfl, by decide⟩,
    rfl⟩

mutual

/-- A reader who finds the text of a value reads the value, and stops behind it. -/
theorem readValue_dumps (layout : Layout) (float : List Char → Float64) :
    ∀ (value : Json), value.Plain → ∀ (level fuel : Nat) (rest : List Char), Ends rest →
      (dumps layout level value).length ≤ fuel →
      readValue float fuel (dumps layout level value ++ rest) = some (value, rest)
  | value, plain, level, 0, _, _, enough => by
      obtain ⟨char, more, spelt, _⟩ := dumps_starts layout level plain
      rw [spelt] at enough
      cases enough
  | .null, _, _, fuel + 1, rest, _, _ => (readValue_word float fuel rest).1
  | .bool true, _, _, fuel + 1, rest, _, _ => (readValue_word float fuel rest).2.1
  | .bool false, _, _, fuel + 1, rest, _, _ => (readValue_word float fuel rest).2.2
  | .int number, _, _, fuel + 1, _, ends, _ => readValue_int float fuel number ends
  | .float _, plain, _, _ + 1, _, _, _ => absurd plain (by simp [Plain])
  | .str text, _, _, fuel + 1, rest, _, _ =>
      readValue_str float fuel layout.ensureAscii text rest
  | .list [], _, _, _ + 1, _, _, _ => rfl
  | .dict [], _, _, _ + 1, _, _, _ => rfl
  | .list (item :: items), plain, level, fuel + 1, rest, _, enough => by
      simp only [Plain, PlainItems] at plain
      simp only [dumps, List.length_cons, List.length_append, List.length_nil] at enough
      obtain ⟨char, more, spelt, visible, closes, _⟩ := dumps_starts layout (level + 1) plain.1
      have read := readItems_dumps layout float item items plain.1 plain.2 (level + 1) fuel
        (layout.gap level) rest (blank_gap layout level)
        (by rw [List.length_append]; omega)
      have whole := readValue_list (blank_gap layout (level + 1))
        ((starts_dumps layout (level + 1) plain.1).append _)
        (by rw [spelt]; exact fun same => closes (Option.some.inj same)) read
      simpa only [dumps, List.append_assoc, List.cons_append, List.nil_append] using whole
  | .dict ((key, value) :: entries), plain, level, fuel + 1, rest, _, enough => by
      simp only [Plain, PlainMembers] at plain
      simp only [dumps, List.length_cons, List.length_append, List.length_nil] at enough
      obtain ⟨starts, first⟩ := starts_member layout key
        (dumps layout (level + 1) value ++ (dumpsMembers layout (level + 1) entries ++
          (layout.gap level ++ '\x7d' :: rest)))
      have read := readMembers_dumps layout float key value entries plain.2.1 plain.2.2
        (level + 1) fuel (layout.gap level) rest (blank_gap layout level)
        (by simp only [List.length_append]; omega)
      have whole := readValue_dict (blank_gap layout (level + 1)) starts
        (by rw [first]; simp) read
      rw [Dict.ofPairs_of_nodup plain.1] at whole
      simpa only [dumps, List.append_assoc, List.cons_append, List.nil_append] using whole
termination_by value => sizeOf value

theorem readItems_dumps (layout : Layout) (float : List Char → Float64) :
    ∀ (item : Json) (items : List Json), item.Plain → PlainItems items → ∀ (level fuel : Nat)
      (white rest : List Char), Blank white →
      (dumps layout level item ++ dumpsItems layout level items).length < fuel →
      readItems float fuel (dumps layout level item ++ (dumpsItems layout level items ++
        (white ++ ']' :: rest))) = some (item :: items, rest)
  | _, _, _, _, _, 0, _, _, _, enough => absurd enough (Nat.not_lt_zero _)
  | item, [], plain, _, level, fuel + 1, white, rest, blank, enough => by
      rw [List.length_append] at enough
      exact readItems_last blank (readValue_dumps layout float item plain level fuel _
        (ends_close blank rest).1 (by omega))
  | item, next :: items, plain, others, level, fuel + 1, white, rest, blank, enough => by
      simp only [PlainItems] at others
      obtain ⟨space, comma, between⟩ := comma_eq layout level
      simp only [dumpsItems, comma, List.length_cons, List.length_append] at enough
      have read := readValue_dumps layout float item plain level fuel _
        (ends_comma (space ++ (dumps layout level next ++ (dumpsItems layout level items ++
          (white ++ ']' :: rest))))) (by omega)
      have more := readItems_dumps layout float next items others.1 others.2 level fuel white
        rest blank (by rw [List.length_append]; omega)
      have whole := readItems_cons between ((starts_dumps layout level others.1).append _)
        read more
      simpa only [dumpsItems, comma, List.append_assoc, List.cons_append] using whole
termination_by item items => sizeOf item + sizeOf items

theorem readMembers_dumps (layout : Layout) (float : List Char → Float64) :
    ∀ (key : List Char) (value : Json) (entries : List (List Char × Json)), value.Plain →
      PlainMembers entries → ∀ (level fuel : Nat) (white rest : List Char), Blank white →
      (quoted layout.ensureAscii key ++ ": ".toList ++ dumps layout level value ++
        dumpsMembers layout level entries).length < fuel →
      readMembers float fuel (quoted layout.ensureAscii key ++ ": ".toList ++
        (dumps layout level value ++ (dumpsMembers layout level entries ++
          (white ++ '\x7d' :: rest)))) = some ((key, value) :: entries, rest)
  | _, _, _, _, _, _, 0, _, _, _, enough => absurd enough (Nat.not_lt_zero _)
  | key, value, [], plain, _, level, fuel + 1, white, rest, blank, enough => by
      simp only [List.length_append] at enough
      have named := readKey_quoted layout.ensureAscii key
        ((starts_dumps layout level plain).append (white ++ '\x7d' :: rest))
      exact readMembers_last blank named (readValue_dumps layout float value plain level fuel _
        (ends_close blank rest).2 (by omega))
  | key, value, (other, next) :: entries, plain, others, level, fuel + 1, white, rest, blank,
      enough => by
      simp only [PlainMembers] at others
      obtain ⟨space, comma, between⟩ := comma_eq layout level
      simp only [dumpsMembers, comma, List.length_cons, List.length_append] at enough
      have named := readKey_quoted layout.ensureAscii key
        ((starts_dumps layout level plain).append (dumpsMembers layout level
          ((other, next) :: entries) ++ (white ++ '\x7d' :: rest)))
      have read := readValue_dumps layout float value plain level fuel _
        (ends_comma (space ++ (quoted layout.ensureAscii other ++ ": ".toList ++
          (dumps layout level next ++ (dumpsMembers layout level entries ++
            (white ++ '\x7d' :: rest)))))) (by omega)
      have more := readMembers_dumps layout float other next entries others.1 others.2 level
        fuel white rest blank (by simp only [List.length_append]; omega)
      have after : dumps layout level value ++ (dumpsMembers layout level
          ((other, next) :: entries) ++ (white ++ '\x7d' :: rest)) =
          dumps layout level value ++ ',' :: (space ++ (quoted layout.ensureAscii other ++
            ": ".toList ++ (dumps layout level next ++ (dumpsMembers layout level entries ++
              (white ++ '\x7d' :: rest))))) := by
        simp only [dumpsMembers, comma, List.append_assoc, List.cons_append]
      rw [after] at named ⊢
      exact readMembers_cons between (starts_member layout other _).1 named read more
termination_by _ value entries => sizeOf value + sizeOf entries

end

/-- `json.loads(json.dumps(value)) == value`. -/
theorem loads_dumps (layout : Layout) (float : List Char → Float64) {value : Json}
    (plain : value.Plain) : loads float (dumps layout 0 value) = some value := by
  have read := readValue_dumps layout float value plain 0 ((dumps layout 0 value).length + 1) []
    (fun char head => by cases head) (Nat.le_succ _)
  rw [List.append_nil] at read
  unfold loads
  rw [skipBlank_starts (starts_dumps layout 0 plain), read]
  rfl

end Json
