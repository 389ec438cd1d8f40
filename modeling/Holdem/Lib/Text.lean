import Mathlib.Algebra.GroupWithZero.Nat
import Mathlib.Data.List.Infix

set_option autoImplicit false

/- Text as lists of characters, with the reading of a text file by lines and by byte
positions as Python does it. -/
namespace Text

/-- What holds of every character of a text is decided along the text, not along all
characters. -/
instance (priority := high) decidableForallMem {test : Char → Prop} [DecidablePred test]
    (text : List Char) : Decidable (∀ char ∈ text, test char) :=
  List.decidableBAll test text

def contains (needle text : List Char) : Bool := text.tails.any fun rest => needle.isPrefixOf rest

theorem contains_eq_false {needle text : List Char} {char : Char} (needed : char ∈ needle)
    (absent : char ∉ text) : contains needle text = false := by
  unfold contains
  apply List.any_eq_false.mpr
  intro rest tail begins
  have inside : needle <+: rest := List.isPrefixOf_iff_prefix.mp begins
  exact absent ((List.mem_tails rest text |>.mp tail).subset (inside.subset needed))

theorem contains_append (needle rest : List Char) : contains needle (needle ++ rest) = true := by
  unfold contains
  apply List.any_eq_true.mpr
  refine ⟨needle ++ rest, (List.mem_tails _ _).mpr List.suffix_rfl, ?_⟩
  exact List.isPrefixOf_iff_prefix.mpr (List.prefix_append needle rest)

theorem contains_of_infix {needle text : List Char} (stands : needle <:+: text) :
    contains needle text = true := by
  obtain ⟨before, after, rfl⟩ := stands
  unfold contains
  apply List.any_eq_true.mpr
  refine ⟨needle ++ after, (List.mem_tails _ _).mpr ⟨before, ?_⟩, ?_⟩
  · rw [List.append_assoc]
  · exact List.isPrefixOf_iff_prefix.mpr (List.prefix_append needle after)

/-- `text.strip()`, for a given class of white space. -/
def strip (space : Char → Bool) (text : List Char) : List Char :=
  ((text.dropWhile space).reverse.dropWhile space).reverse

/-- Like `lstrip` in front, `strip` does not see the white space that is put before a text. -/
theorem strip_lead {space : Char → Bool} {lead : List Char}
    (blank : ∀ char ∈ lead, space char = true) (text : List Char) :
    strip space (lead ++ text) = strip space text := by
  unfold strip
  rw [List.dropWhile_append_of_pos blank]

theorem strip_tail {space : Char → Bool} {tail : List Char}
    (blank : ∀ char ∈ tail, space char = true) (text : List Char) :
    strip space (text ++ tail) = strip space text := by
  have gone : tail.dropWhile space = [] := by
    have whole := @List.dropWhile_append_of_pos _ space tail [] blank
    rwa [List.append_nil, List.dropWhile_nil] at whole
  have back : ∀ char ∈ tail.reverse, space char = true := fun char member =>
    blank char (List.mem_reverse.mp member)
  unfold strip
  rw [List.dropWhile_append]
  split
  · rename_i empty
    rw [gone, List.isEmpty_iff.mp empty]
  · rw [List.reverse_append, List.dropWhile_append_of_pos back]

/-- A text that is visible at both ends is what `strip` leaves. -/
theorem strip_ends {space : Char → Bool} {text : List Char}
    (first : ∀ char, text.head? = some char → space char = false)
    (last : ∀ char, text.getLast? = some char → space char = false) :
    strip space text = text := by
  have kept : ∀ other : List Char, (∀ char, other.head? = some char → space char = false) →
      other.dropWhile space = other := by
    intro other visible
    cases other with
    | nil => rfl
    | cons char rest => rw [List.dropWhile_cons, if_neg (by simp [visible char rfl])]
  unfold strip
  rw [kept text first, kept text.reverse (fun char head => last char (by rw [← head, List.head?_reverse])),
    List.reverse_reverse]

/-- `readlines()` with universal newlines: every line keeps its end, which is read as
`\n`. -/
def readLines : List Char → List (List Char)
  | [] => []
  | '\n' :: rest => ['\n'] :: readLines rest
  | '\r' :: '\n' :: rest => ['\n'] :: readLines rest
  | '\r' :: rest => ['\n'] :: readLines rest
  | char :: rest =>
      match readLines rest with
      | [] => [[char]]
      | line :: lines => (char :: line) :: lines

/-- Nothing, or lines that are all ended. -/
def Whole (content : List Char) : Prop := content = [] ∨ content.getLast? = some '\n'

/-- The size of a text in bytes of UTF-8. -/
def byteSize (content : List Char) : Nat := (content.map Char.utf8Size).sum

/-- What a reader sees from a byte position on; `none` inside a character, which cannot be
decoded. -/
def seek : List Char → Nat → Option (List Char)
  | content, 0 => some content
  | [], _ + 1 => some []
  | char :: rest, position + 1 =>
      if char.utf8Size ≤ position + 1 then seek rest (position + 1 - char.utf8Size) else none

theorem readLines_ne_nil {content : List Char} (some : content ≠ []) :
    readLines content ≠ [] := by
  unfold readLines
  split
  · exact absurd rfl some
  · exact List.cons_ne_nil _ _
  · exact List.cons_ne_nil _ _
  · exact List.cons_ne_nil _ _
  · split <;> exact List.cons_ne_nil _ _

theorem Whole.tail {char : Char} {rest : List Char} (whole : Whole (char :: rest)) :
    Whole rest := by
  cases rest with
  | nil => exact Or.inl rfl
  | cons next rest =>
      right
      rcases whole with empty | ended
      · cases empty
      · rwa [List.getLast?_cons_cons] at ended

theorem Whole.rest_ne_nil {char : Char} {rest : List Char} (whole : Whole (char :: rest))
    (other : char ≠ '\n') : rest ≠ [] := by
  rintro rfl
  rcases whole with empty | ended
  · cases empty
  · exact other (Option.some.inj ended)

theorem Whole.append {first second : List Char} (whole : Whole first) (other : Whole second) :
    Whole (first ++ second) := by
  rcases other with rfl | ended
  · rwa [List.append_nil]
  · right
    rw [List.getLast?_append, ended]
    rfl

/-- Behind whole lines the next ones are read as they would be alone. -/
theorem readLines_append {content : List Char} (whole : Whole content) (more : List Char) :
    readLines (content ++ more) = readLines content ++ readLines more := by
  induction content using readLines.induct with
  | case1 => rfl
  | case2 rest ih => simp only [List.cons_append, readLines, ih whole.tail]
  | case3 rest ih => simp only [List.cons_append, readLines, ih whole.tail.tail]
  | case4 rest apart ih =>
      have another := whole.rest_ne_nil (by decide)
      cases rest with
      | nil => exact absurd rfl another
      | cons next rest =>
          have still : ∀ other, next :: (rest ++ more) = '\n' :: other → False := by
            intro other same
            exact apart rest (by rw [(List.cons.inj same).1])
          rw [List.cons_append, List.cons_append, readLines.eq_4 _ still,
            readLines.eq_4 _ apart, ← List.cons_append, ih whole.tail, List.cons_append]
  | case5 char rest newline pair single unread ih =>
      exact absurd unread (readLines_ne_nil (whole.rest_ne_nil newline))
  | case6 char rest newline pair single line lines read ih =>
      rw [List.cons_append, readLines.eq_5 _ _ newline (fun _ same _ => single same) single,
        readLines.eq_5 _ _ newline pair single, ih whole.tail, read]
      rfl

theorem seek_append (content more : List Char) :
    seek (content ++ more) (byteSize content) = some more := by
  induction content with
  | nil =>
      unfold byteSize seek
      rfl
  | cons char rest ih =>
      have size : byteSize (char :: rest) = byteSize rest + (char.utf8Size - 1) + 1 := by
        have := char.utf8Size_pos
        simp only [byteSize, List.map_cons, List.sum_cons]
        omega
      have pos := char.utf8Size_pos
      rw [size, List.cons_append, seek, if_pos (by omega)]
      have left : byteSize rest + (char.utf8Size - 1) + 1 - char.utf8Size = byteSize rest := by
        omega
      rw [left, ih]

def splitAtMost (mark : Char) : Nat → List Char → List (List Char)
  | 0, text => [text]
  | count + 1, text =>
      let piece := text.takeWhile fun char => char != mark
      match text.dropWhile fun char => char != mark with
      | [] => [piece]
      | _ :: rest => piece :: splitAtMost mark count rest

theorem splitAtMost_piece {mark : Char} {piece : List Char} (whole : mark ∉ piece) (count : Nat)
    (rest : List Char) :
    splitAtMost mark (count + 1) (piece ++ mark :: rest) =
      piece :: splitAtMost mark count rest := by
  have others : ∀ char ∈ piece, (char != mark) = true := by
    intro char member
    rw [bne_iff_ne]
    rintro rfl
    exact whole member
  have taken : (piece ++ mark :: rest).takeWhile (fun char => char != mark) = piece := by
    rw [List.takeWhile_append_of_pos others, List.takeWhile_cons, if_neg (by simp),
      List.append_nil]
  have dropped : (piece ++ mark :: rest).dropWhile (fun char => char != mark) = mark :: rest := by
    rw [List.dropWhile_append_of_pos others, List.dropWhile_cons, if_neg (by simp)]
  rw [splitAtMost, taken, dropped]

/-- Two marked pieces that begin one text are the same piece. -/
theorem piece_unique {mark : Char} {first second rest : List Char} (whole : mark ∉ first)
    (other : mark ∉ second) (begins : first ++ [mark] <+: second ++ mark :: rest) :
    first = second := by
  induction first generalizing second with
  | nil =>
      cases second with
      | nil => rfl
      | cons char more =>
          obtain ⟨_, same⟩ := begins
          have head := (List.cons.inj same).1
          exact absurd (head ▸ List.mem_cons_self ..) other
  | cons char more ih =>
      cases second with
      | nil =>
          obtain ⟨_, same⟩ := begins
          have head := (List.cons.inj same).1
          exact absurd (head ▸ List.mem_cons_self ..) whole
      | cons letter later =>
          rw [List.cons_append, List.cons_append, List.cons_prefix_cons] at begins
          obtain ⟨rfl, begins⟩ := begins
          rw [ih (fun member => whole (List.mem_cons_of_mem _ member))
            (fun member => other (List.mem_cons_of_mem _ member)) begins]

/-- Around another mark, a mark is in neither part. -/
theorem not_mem_joined {mark other : Char} {left right : List Char} (apart : mark ≠ other)
    (first : mark ∉ left) (second : mark ∉ right) : mark ∉ left ++ other :: right := by
  rw [List.mem_append, List.mem_cons, not_or, not_or]
  exact ⟨first, apart, second⟩

theorem mark_right {mark : Char} {left right skip rest : List Char} (absent : mark ∉ left)
    (split : left ++ right = skip ++ mark :: rest) :
    ∃ later, skip = left ++ later ∧ right = later ++ mark :: rest := by
  induction left generalizing skip with
  | nil => exact ⟨skip, rfl, split⟩
  | cons char left ih =>
      cases skip with
      | nil =>
          have here := (List.cons.inj split).1
          exact absurd (here ▸ List.mem_cons_self ..) absent
      | cons head skip =>
          obtain ⟨same, remains⟩ := List.cons.inj split
          obtain ⟨later, before, after⟩ :=
            ih (fun member => absent (List.mem_cons_of_mem _ member)) remains
          exact ⟨later, by rw [same, before, List.cons_append], after⟩

theorem mark_left {mark : Char} {left right skip rest : List Char} (absent : mark ∉ right)
    (split : left ++ right = skip ++ mark :: rest) :
    ∃ later, left = skip ++ mark :: later ∧ rest = later ++ right := by
  induction left generalizing skip with
  | nil =>
      have member : mark ∈ skip ++ mark :: rest :=
        List.mem_append_right _ (List.mem_cons_self ..)
      rw [← split] at member
      exact absurd member absent
  | cons char left ih =>
      cases skip with
      | nil =>
          obtain ⟨same, remains⟩ := List.cons.inj split
          exact ⟨left, by rw [same, List.nil_append], remains.symm⟩
      | cons head skip =>
          obtain ⟨same, remains⟩ := List.cons.inj split
          obtain ⟨later, before, after⟩ := ih remains
          exact ⟨later, by rw [same, before, List.cons_append], after⟩

theorem first_mark {mark : Char} {left right skip rest : List Char} (absent : mark ∉ left)
    (unseen : mark ∉ skip) (split : left ++ mark :: right = skip ++ mark :: rest) :
    left = skip ∧ right = rest := by
  obtain ⟨later, before, after⟩ := mark_right absent split
  cases later with
  | nil =>
      rw [List.append_nil] at before
      exact ⟨before.symm, (List.cons.inj after).2⟩
  | cons head later =>
      have here := (List.cons.inj after).1
      rw [before, here] at unseen
      exact absurd (List.mem_append_right _ (List.mem_cons_self ..)) unseen

/-- A word that neither begins nor ends like the frame stands within it. -/
theorem infix_framed {first last head tail : Char} {word inner : List Char}
    (begins : head ≠ first) (ends : tail ≠ last)
    (stands : head :: (word ++ [tail]) <:+: first :: (inner ++ [last])) :
    head :: (word ++ [tail]) <:+: inner := by
  rcases List.infix_cons_iff.mp stands with front | within
  · exact absurd (List.cons_prefix_cons.mp front).1 begins
  · rcases List.infix_concat_iff.mp within with back | within
    · obtain ⟨skip, split⟩ := back
      have final := congrArg List.getLast? split
      rw [← List.cons_append, ← List.append_assoc, List.getLast?_concat,
        List.getLast?_concat] at final
      exact absurd (Option.some.inj final) ends
    · exact within

/-! ### Splitting at a word -/

/-- `text.replace(word, "")`, behind so many characters that belong to the last `word`. -/
def withoutFrom (word : List Char) : Nat → List Char → List Char
  | _, [] => []
  | skip + 1, _ :: rest => withoutFrom word skip rest
  | 0, char :: rest =>
      if word.isPrefixOf (char :: rest) then withoutFrom word (word.length - 1) rest
      else char :: withoutFrom word 0 rest

def without (word text : List Char) : List Char := withoutFrom word 0 text

/-- A text before and behind the first place of a mark. -/
def cut (mark : List Char) : List Char → Option (List Char × List Char)
  | [] => none
  | char :: rest =>
      if mark.isPrefixOf (char :: rest) then some ([], (char :: rest).drop mark.length)
      else (cut mark rest).map fun parts => (char :: parts.1, parts.2)

/-- `text.split(mark)[0]`. -/
def firstPiece (mark text : List Char) : List Char :=
  match cut mark text with
  | none => text
  | some (piece, _) => piece

/-- `text.split(mark)[1]`; `none` where the index is out of range. -/
def secondPiece (mark text : List Char) : Option (List Char) :=
  (cut mark text).map fun parts => firstPiece mark parts.2

theorem cut_append {head : Char} {mark piece : List Char} (absent : head ∉ piece)
    (rest : List Char) :
    cut (head :: mark) (piece ++ (head :: mark) ++ rest) = some (piece, rest) := by
  induction piece with
  | nil =>
      have begins : (head :: mark).isPrefixOf ((head :: mark) ++ rest) = true :=
        List.isPrefixOf_iff_prefix.mpr (List.prefix_append _ _)
      rw [List.nil_append]
      rw [List.cons_append] at begins ⊢
      rw [cut, if_pos begins, ← List.cons_append, List.drop_left]
  | cons char piece ih =>
      rw [List.mem_cons, not_or] at absent
      have other : (head :: mark).isPrefixOf (char :: (piece ++ (head :: mark) ++ rest)) = false := by
        simp [List.isPrefixOf, absent.1]
      rw [List.cons_append, List.cons_append, cut, other, if_neg Bool.false_ne_true,
        ih absent.2]
      rfl

theorem cut_eq_none {head : Char} {mark text : List Char} (absent : head ∉ text) :
    cut (head :: mark) text = none := by
  induction text with
  | nil => rfl
  | cons char rest ih =>
      rw [List.mem_cons, not_or] at absent
      have other : (head :: mark).isPrefixOf (char :: rest) = false := by
        simp [List.isPrefixOf, absent.1]
      rw [cut, other, if_neg Bool.false_ne_true, ih absent.2]
      rfl

end Text
