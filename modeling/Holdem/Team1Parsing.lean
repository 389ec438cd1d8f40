import Holdem.Team1Agreement

set_option autoImplicit false

/- Which texts the team1 evaluator reads as cards, and what it does with the others. -/
namespace Holdem.Team1

/-! ### The texts of cards -/

/-- The four Unicode suits and the suit letters in both cases. -/
def namedSuits : List Char := "♠♥♦♣shdcSHDC".toList

/-- The texts of the ranks: 2 to 9, T or 10, J, Q, K, A, in both cases. -/
def namedRanks : List (List Char) := ["10".toList] ++ "23456789TtJjQqKkAa".toList.map ([·])

/-- A rank followed by one suit character. -/
def isCardText (text : String) : Bool :=
  match text.toList.getLast? with
  | none => false
  | some suit => namedSuits.contains suit && namedRanks.contains text.toList.dropLast

/-- A run of ranks as they stand in `RANKS`, however long or short, and a suit character. -/
def isRankRun (text : String) : Bool :=
  match text.toList.getLast? with
  | none => false
  | some suit => namedSuits.contains suit &&
      Text.contains (text.toList.dropLast.map Char.toUpper) ranks

def readRank (lib : CaseMap) (rankStr : List Char) : List Char :=
  let upper := rankStr.flatMap lib.upper
  if upper = ['1', '0'] then ['T'] else upper

def readSuit (lib : CaseMap) (suitStr : Char) : List Char :=
  match suitMap.lookup suitStr with
  | some suit => [suit]
  | none => lib.lower suitStr

theorem parseCard_eq (lib : CaseMap) (cardStr : String) {suitStr : Char}
    (last : cardStr.toList.getLast? = some suitStr) :
    ∃ message, parseCard lib cardStr =
      if !Text.contains (readRank lib cardStr.toList.dropLast) ranks ||
          !Text.contains (readSuit lib suitStr) suits then .error (.valueError message)
      else .ok ⟨readRank lib cardStr.toList.dropLast, readSuit lib suitStr⟩ := by
  unfold parseCard
  rw [last]
  exact ⟨_, rfl⟩

theorem ascii_cases (test : Char → Bool)
    (all : ((List.range 128).all fun n => test (Char.ofNat n)) = true) {char : Char}
    (ascii : char.val < 128) : test char = true := by
  have small : char.toNat < 128 := UInt32.lt_iff_toNat_lt.mp ascii
  have checked := List.all_eq_true.mp all char.toNat (List.mem_range.mpr small)
  rwa [Char.ofNat_toNat] at checked

/-- No two capitals are spelled by one digit. -/
theorem toUpper_digit {char : Char} (ascii : char.val < 128) (digit : char.toUpper = '0' ∨
    char.toUpper = '1') : char.toUpper = char := by
  have checked := ascii_cases (fun char => !(char.toUpper == '0' || char.toUpper == '1') ||
    char.toUpper == char) (by decide) ascii
  rcases digit with zero | one
  · simpa [zero] using checked
  · simpa [one] using checked

theorem named_of_letter {char : Char} (ascii : char.val < 128) (letter : char.toUpper ∈ ranks) :
    namedRanks.contains [char] = true := by
  have checked := ascii_cases (fun char => !ranks.contains char.toUpper ||
    namedRanks.contains [char]) (by decide) ascii
  rw [List.contains_iff_mem.mpr letter] at checked
  exact checked

/-- What `_parse_card` makes of an ASCII character as a suit. -/
theorem suit_of_ascii {char : Char} (ascii : char.val < 128) :
    let suit := match suitMap.lookup char with
      | some suit => [suit]
      | none => [char.toLower]
    (namedSuits.contains char = true → ∃ named : Suit, suit = [suitLetter named]) ∧
      (namedSuits.contains char = false → Text.contains suit suits = false) := by
  have checked := ascii_cases (fun char =>
    let suit := match suitMap.lookup char with
      | some suit => [suit]
      | none => [char.toLower]
    if namedSuits.contains char then Suit.all.any fun named => suit == [suitLetter named]
    else !Text.contains suit suits) (by decide) ascii
  dsimp only at checked ⊢
  cases named : namedSuits.contains char
  · rw [named, if_neg Bool.false_ne_true, Bool.not_eq_true'] at checked
    exact ⟨fun known => absurd known Bool.false_ne_true, fun _ => checked⟩
  · rw [named, if_pos rfl] at checked
    obtain ⟨suit, _, same⟩ := List.any_eq_true.mp checked
    exact ⟨fun _ => ⟨suit, beq_iff_eq.mp same⟩, fun unknown => absurd unknown.symm Bool.false_ne_true⟩

theorem contains_single {char : Char} {text : List Char} :
    Text.contains [char] text = true ↔ char ∈ text := by
  constructor
  · intro found
    by_contra absent
    rw [Text.contains_eq_false (List.mem_singleton_self char) absent] at found
    cases found
  · intro member
    obtain ⟨before, after, rfl⟩ := List.append_of_mem member
    unfold Text.contains
    apply List.any_eq_true.mpr
    refine ⟨char :: after, (List.mem_tails _ _).mpr (List.suffix_append before _), ?_⟩
    simp [List.isPrefixOf]

theorem ascii_of_rank : (("0123456789TJQKA".toList.all fun char => decide (char.val < 128)) = true) ∧
    ((ranks.all fun char => "0123456789TJQKA".toList.contains char) = true) ∧
    (namedRanks.all fun text => text.all fun char => decide (char.val < 128)) = true := by
  decide

theorem flatMap_upper_ascii (lib : CaseMap) {text : List Char}
    (ascii : ∀ char ∈ text, char.val < 128) :
    text.flatMap lib.upper = text.map Char.toUpper := by
  rw [List.flatMap_congr fun char member => lib.upper_ascii char (ascii char member)]
  exact List.map_eq_flatMap.symm

theorem toUpper_of_beyond {char : Char} (beyond : 128 ≤ char.val) : char.toUpper = char := by
  unfold Char.toUpper
  rw [dif_neg]
  rintro ⟨_, low⟩
  have high : (128 : UInt32) ≤ 'z'.val := UInt32.le_trans beyond low
  exact absurd high (by decide)

/-- The text before the suit of a card: a named rank is read as its letter. What else is found
in `RANKS` is a run of ranks, and `RANK_MAP` knows none of these. -/
theorem readRank_spec (lib : CaseMap) (text : List Char) :
    (namedRanks.contains text = true →
        ∃ number, 2 ≤ number ∧ number ≤ 14 ∧ readRank lib text = [rankLetter number]) ∧
      (namedRanks.contains text = false →
        Text.contains (readRank lib text) ranks = Text.contains (text.map Char.toUpper) ranks ∧
          (Text.contains (readRank lib text) ranks = true →
            rankMap (readRank lib text) = none)) := by
  unfold readRank
  obtain ⟨spelled, inside, named⟩ := ascii_of_rank
  by_cases ascii : ∀ char ∈ text, char.val < 128
  · rw [flatMap_upper_ascii lib ascii]
    dsimp only
    constructor
    · intro known
      have letters : (namedRanks.all fun text => (List.range' 2 13).any fun number =>
          (if text.map Char.toUpper = ['1', '0'] then ['T'] else text.map Char.toUpper) ==
            [rankLetter number]) = true := by decide
      have found := List.all_eq_true.mp letters text (List.contains_iff_mem.mp known)
      obtain ⟨number, range, same⟩ := List.any_eq_true.mp found
      obtain ⟨low, high⟩ := List.mem_range'_1.mp range
      exact ⟨number, low, by omega, beq_iff_eq.mp same⟩
    · intro unknown
      have notTen : text.map Char.toUpper ≠ ['1', '0'] := by
        intro ten
        have size := congrArg List.length ten
        rw [List.length_map] at size
        obtain ⟨first, second, rfl⟩ := List.length_eq_two.mp size
        simp only [List.map_cons, List.map_nil, List.cons.injEq, and_true] at ten
        have one := toUpper_digit (ascii first (by simp)) (Or.inr ten.1)
        have naught := toUpper_digit (ascii second (by simp)) (Or.inl ten.2)
        rw [← one, ← naught, ten.1, ten.2] at unknown
        exact absurd unknown (by decide)
      rw [if_neg notTen]
      refine ⟨rfl, ?_⟩
      intro run
      unfold rankMap
      split
      · rename_i letter single
        have size := congrArg List.length single
        rw [List.length_map] at size
        obtain ⟨char, rfl⟩ := List.length_eq_one_iff.mp size
        rw [List.map_singleton] at single run
        have known := named_of_letter (ascii char (by simp)) (contains_single.mp run)
        rw [known] at unknown
        cases unknown
      · rfl
  · obtain ⟨char, member, beyond⟩ := by
      simpa only [not_forall, exists_prop, UInt32.not_lt] using ascii
    obtain ⟨other, otherIn, foreign⟩ := lib.upper_other char beyond
    have upperHas : other ∈ text.flatMap lib.upper := List.mem_flatMap.mpr ⟨char, member, otherIn⟩
    have notRank : other ∉ ranks := by
      intro rank
      exact foreign (List.contains_iff_mem.mp (List.all_eq_true.mp inside other rank))
    have notTen : text.flatMap lib.upper ≠ ['1', '0'] := by
      intro ten
      rw [ten] at upperHas
      simp only [List.mem_cons, List.not_mem_nil, or_false] at upperHas
      rcases upperHas with rfl | rfl <;> exact absurd foreign (by decide)
    have same : char ∈ text.map Char.toUpper :=
      List.mem_map.mpr ⟨char, member, toUpper_of_beyond beyond⟩
    have charForeign : char ∉ ranks := by
      intro rank
      have known := List.contains_iff_mem.mp (List.all_eq_true.mp inside char rank)
      exact absurd known (not_mem_of_ascii beyond spelled)
    dsimp only
    rw [if_neg notTen, Text.contains_eq_false upperHas notRank,
      Text.contains_eq_false same charForeign]
    refine ⟨?_, fun _ => ⟨rfl, fun found => by cases found⟩⟩
    intro known
    have plain := List.all_eq_true.mp named text (List.contains_iff_mem.mp known)
    exact absurd member (not_mem_of_ascii beyond plain)

/-- A suit character is read as its letter; what another becomes is not in `SUITS`. -/
theorem readSuit_spec (lib : CaseMap) (char : Char) :
    (namedSuits.contains char = true → ∃ named, readSuit lib char = [suitLetter named]) ∧
      (namedSuits.contains char = false → Text.contains (readSuit lib char) suits = false) := by
  unfold readSuit
  by_cases ascii : char.val < 128
  · rw [lib.lower_ascii char ascii]
    exact suit_of_ascii ascii
  · have beyond := UInt32.not_lt.mp ascii
    constructor
    · intro known
      have symbols : (namedSuits.all fun char => decide (char.val < 128) ||
          Suit.all.any fun named => suitMap.lookup char == some (suitLetter named)) = true := by decide
      have found := List.all_eq_true.mp symbols char (List.contains_iff_mem.mp known)
      rw [decide_eq_false ascii, Bool.false_or] at found
      obtain ⟨named, _, same⟩ := List.any_eq_true.mp found
      rw [beq_iff_eq.mp same]
      exact ⟨named, rfl⟩
    · intro unknown
      have absent : suitMap.lookup char = none := by
        rw [List.lookup_eq_none_iff]
        intro entry member
        have listed : (suitMap.all fun entry => namedSuits.contains entry.1) = true := by decide
        have known := List.all_eq_true.mp listed entry member
        rw [bne_iff_ne]
        rintro rfl
        rw [known] at unknown
        cases unknown
      obtain ⟨other, otherIn, foreign⟩ := lib.lower_other char beyond
      rw [absent]
      exact Text.contains_eq_false otherIn foreign

/-- `_parse_card` reads the text of a card as that card. Of the other texts it lets a run of
ranks pass, raises `IndexError` on the empty one and `ValueError` on the rest. -/
theorem parseCard_cases (lib : CaseMap) (text : String) :
    (isCardText text = true → ∃ card, parseCard lib text = .ok (ofCard card)) ∧
      (isCardText text = false → isRankRun text = true →
        ∃ parsed, parseCard lib text = .ok parsed ∧ rankMap parsed.rank = none) ∧
      (isCardText text = false → isRankRun text = false →
        if text = "" then ∃ message, parseCard lib text = .error (.indexError message)
        else ∃ message, parseCard lib text = .error (.valueError message)) := by
  unfold isCardText isRankRun
  cases last : text.toList.getLast? with
  | none =>
      have empty : text = "" := String.toList_eq_nil_iff.mp (List.getLast?_eq_none_iff.mp last)
      refine ⟨fun known => absurd known Bool.false_ne_true,
        fun _ run => absurd run Bool.false_ne_true, fun _ _ => ?_⟩
      rw [if_pos empty]
      unfold parseCard
      rw [last]
      exact ⟨_, rfl⟩
  | some suitStr =>
      have filled : text ≠ "" := by
        rintro rfl
        cases last
      obtain ⟨suitKnown, suitUnknown⟩ := readSuit_spec lib suitStr
      obtain ⟨rankKnown, rankUnknown⟩ := readRank_spec lib text.toList.dropLast
      obtain ⟨message, parsed⟩ := parseCard_eq lib text last
      rw [if_neg filled, parsed]
      dsimp only
      cases suit : namedSuits.contains suitStr
      · rw [suitUnknown suit]
        simp
      · obtain ⟨named, read⟩ := suitKnown suit
        have suitFits : Text.contains [suitLetter named] suits = true := by
          cases named <;> decide
        rw [read, suitFits]
        cases rank : namedRanks.contains text.toList.dropLast
        · obtain ⟨same, unmapped⟩ := rankUnknown rank
          rw [same] at unmapped ⊢
          cases run : Text.contains (text.toList.dropLast.map Char.toUpper) ranks
          · simp
          · simpa using unmapped run
        · obtain ⟨number, low, high, letter⟩ := rankKnown rank
          have rankFits := (rankMap_rankLetter number (by omega) low).2.1
          rw [letter, rankFits]
          simp only [Bool.not_true, Bool.or_self, Bool.false_eq_true, ↓reduceIte, Bool.and_self,
            forall_const, reduceCtorEq, false_imp_iff, and_true]
          exact ⟨⟨number, named, low, high⟩, rfl⟩

/-! ### Lists of texts -/

/-- Read in order, the first text that `_parse_card` does not take is not empty. -/
def refusedFirst : List String → Bool
  | [] => false
  | text :: rest => if isCardText text || isRankRun text then refusedFirst rest else text != ""

theorem parseCards_cases (lib : CaseMap) (texts : List String) :
    (texts.all isCardText = true ∧ refusedFirst texts = false ∧
        ∃ cards : List Card, parseCards lib texts = .ok (cards.map ofCard) ∧
          cards.length = texts.length) ∨
      (texts.all isCardText = false ∧ refusedFirst texts = false ∧
        ∃ parsed, parseCards lib texts = .ok parsed ∧ parsed.length = texts.length ∧
          ∃ card ∈ parsed, rankMap card.rank = none) ∨
      (texts.all isCardText = false ∧ refusedFirst texts = true ∧
        ∃ message, parseCards lib texts = .error (.valueError message)) ∨
      (texts.all isCardText = false ∧ refusedFirst texts = false ∧
        ∃ message, parseCards lib texts = .error (.indexError message)) := by
  induction texts with
  | nil => exact Or.inl ⟨rfl, rfl, [], rfl, rfl⟩
  | cons text rest ih =>
      obtain ⟨ofKnown, ofRun, ofOther⟩ := parseCard_cases lib text
      rw [List.all_cons, refusedFirst, parseCards]
      cases known : isCardText text
      · cases run : isRankRun text
        · have refused := ofOther known run
          by_cases empty : text = ""
          · rw [if_pos empty] at refused
            obtain ⟨message, raised⟩ := refused
            rw [raised]
            exact Or.inr (Or.inr (Or.inr ⟨rfl, by simp [empty], message, rfl⟩))
          · rw [if_neg empty] at refused
            obtain ⟨message, raised⟩ := refused
            rw [raised]
            exact Or.inr (Or.inr (Or.inl ⟨rfl, by simpa using empty, message, rfl⟩))
        · obtain ⟨parsed, read, unmapped⟩ := ofRun known run
          rw [read]
          rcases ih with ⟨_, kept, others, rests, size⟩ | ⟨_, kept, others, rests, size, _⟩ |
            ⟨_, refused, message, raised⟩ | ⟨_, kept, message, raised⟩
          · rw [rests]
            exact Or.inr (Or.inl ⟨rfl, kept, _, rfl, by simp [size], parsed, by simp, unmapped⟩)
          · rw [rests]
            exact Or.inr (Or.inl ⟨rfl, kept, _, rfl, by simp [size], parsed, by simp, unmapped⟩)
          · rw [raised]
            exact Or.inr (Or.inr (Or.inl ⟨rfl, refused, message, rfl⟩))
          · rw [raised]
            exact Or.inr (Or.inr (Or.inr ⟨rfl, kept, message, rfl⟩))
      · obtain ⟨card, read⟩ := ofKnown known
        rw [read]
        rcases ih with ⟨whole, kept, others, rests, size⟩ |
          ⟨some, kept, others, rests, size, bad, inside, unmapped⟩ |
          ⟨some, refused, message, raised⟩ | ⟨some, kept, message, raised⟩
        · rw [rests]
          exact Or.inl ⟨whole, kept, card :: others, rfl, by simp [size]⟩
        · rw [rests]
          exact Or.inr (Or.inl ⟨some, kept, _, rfl, by simp [size], bad,
            List.mem_cons_of_mem _ inside, unmapped⟩)
        · rw [raised]
          exact Or.inr (Or.inr (Or.inl ⟨some, refused, message, rfl⟩))
        · rw [raised]
          exact Or.inr (Or.inr (Or.inr ⟨some, kept, message, rfl⟩))

theorem parseCards_append (lib : CaseMap) (first second : List String) :
    parseCards lib (first ++ second) =
      match parseCards lib first, parseCards lib second with
      | .ok parsed, .ok others => .ok (parsed ++ others)
      | .error raised, _ => .error raised
      | .ok _, .error raised => .error raised := by
  induction first with
  | nil =>
      rw [List.nil_append, parseCards]
      cases parseCards lib second <;> rfl
  | cons text rest ih =>
      rw [List.cons_append, parseCards, ih, parseCards]
      cases parseCard lib text with
      | error raised => rfl
      | ok parsed =>
          cases parseCards lib rest with
          | error raised => rfl
          | ok others => cases parseCards lib second <;> rfl

theorem parseCards_length {lib : CaseMap} {texts : List String} {parsed : List ParsedCard}
    (read : parseCards lib texts = .ok parsed) : parsed.length = texts.length := by
  rcases parseCards_cases lib texts with ⟨_, _, cards, known, size⟩ | ⟨_, _, others, known, size, _⟩ |
    ⟨_, _, message, raised⟩ | ⟨_, _, message, raised⟩
  · rw [known, Except.ok.injEq] at read
    rw [← read, List.length_map, size]
  · rw [known, Except.ok.injEq] at read
    rw [← read, size]
  · rw [raised] at read
    cases read
  · rw [raised] at read
    cases read

theorem evaluateHand_eq (lib : CaseMap) {holeCards communityCards : List String}
    (two : holeCards.length = 2) (three : 3 ≤ communityCards.length)
    (few : communityCards.length ≤ 5) :
    evaluateHand lib holeCards communityCards =
      match parseCards lib (holeCards ++ communityCards) with
      | .ok cards => evaluateParsed (cards.take 2) (cards.drop 2)
      | .error (.valueError message) => .ok (.error message)
      | .error raised => .error raised := by
  unfold evaluateHand
  rw [if_neg (by omega), if_neg (by omega), parseCards_append]
  cases hole : parseCards lib holeCards with
  | error raised => cases raised <;> rfl
  | ok parsed =>
      cases community : parseCards lib communityCards with
      | error raised => cases raised <;> rfl
      | ok others =>
          have size := (parseCards_length hole).trans two
          dsimp only
          rw [← size, List.take_left, List.drop_left]

/-! ### Evaluating what was read -/

theorem rankDetails_name (sorted : List Nat) (suits : List (List Char)) :
    ∃ name : HandName, (rankDetails sorted suits).handRank = name.rank ∧
      (name = .twoPair → (rankDetails sorted suits).kickers ≠ []) := by
  unfold rankDetails
  dsimp only
  generalize (if (!isStepped sorted && sorted == wheel) = true then wheelLow else sorted) = ranks
  split_ifs with steel four full flush straight three pairs pair
  · exact ⟨.straightFlush, rfl, fun two => by cases two⟩
  · exact ⟨.fourOfAKind, rfl, fun two => by cases two⟩
  · exact ⟨.fullHouse, rfl, fun two => by cases two⟩
  · exact ⟨.flush, rfl, fun two => by cases two⟩
  · exact ⟨.straight, rfl, fun two => by cases two⟩
  · exact ⟨.threeOfAKind, rfl, fun two => by cases two⟩
  · exact ⟨.twoPair, rfl, fun _ => List.cons_ne_nil _ _⟩
  · exact ⟨.onePair, rfl, fun two => by cases two⟩
  · exact ⟨.highCard, rfl, fun two => by cases two⟩

/-- Any five cards or more, repeated or not, are evaluated without an exception. -/
theorem evaluateParsed_hand {hole community : List Card}
    (enough : 5 ≤ (hole ++ community).length) :
    ∃ handName handRank best5Cards score details,
      evaluateParsed (hole.map ofCard) (community.map ofCard) =
        .ok (.hand handName handRank best5Cards score details) := by
  obtain ⟨last, looped, origin, most⟩ := bestCombination_ofCard
    (Combinations.choose 5 (hole ++ community))
    (fun five inside => (Combinations.mem_choose.mp inside).2) {}
  have found : ∃ five ∈ Combinations.choose 5 (hole ++ community), last = bestWith five := by
    rcases origin with rfl | found
    · obtain ⟨five, inside⟩ := List.exists_mem_of_ne_nil _ (Combinations.choose_ne_nil enough)
      obtain ⟨name, rank, _⟩ := rankDetails_name (indices five)
        ((five.map ofCard).map ParsedCard.suit)
      have below : padded ({} : Best).details.score < padded (detailsOf five).score := by
        apply score_lt_of_handRank
        rw [detailsOf, rank]
        cases name <;> decide
      exact absurd below (not_lt.mpr (most five inside))
    · exact found
  obtain ⟨five, _, rfl⟩ := found
  obtain ⟨name, rank, kicker⟩ := rankDetails_name (indices five)
    ((five.map ofCard).map ParsedCard.suit)
  rw [← detailsOf] at rank kicker
  obtain ⟨score, scored⟩ := calculateStrengthScore_ok kicker (hole.map ofCard)
    (community.map ofCard)
  unfold evaluateParsed
  rw [← List.map_append, Combinations.choose_map, looped]
  simp only [bestWith, rank, find_nameOf, scored]
  exact ⟨_, _, _, _, _, rfl⟩

theorem rankIndices_cases (hand : List ParsedCard) :
    (∃ indices, rankIndices hand = .ok indices ∧ ∀ card ∈ hand, rankMap card.rank ≠ none) ∨
      ∃ key, rankIndices hand = .error (.keyError key) := by
  induction hand with
  | nil => exact Or.inl ⟨[], rfl, by simp⟩
  | cons card rest ih =>
      rw [rankIndices]
      cases mapped : rankMap card.rank with
      | none => exact Or.inr ⟨_, rfl⟩
      | some index =>
          rcases ih with ⟨indices, others, known⟩ | ⟨key, raised⟩
          · rw [others]
            refine Or.inl ⟨_, rfl, ?_⟩
            intro other member
            rcases List.mem_cons.mp member with rfl | inside
            · simp [mapped]
            · exact known other inside
          · rw [raised]
            exact Or.inr ⟨key, rfl⟩

theorem bestCombination_raises (combos : List (List ParsedCard)) (best : Best)
    (valid : ∀ hand ∈ combos, hand.length = 5)
    (unmapped : ∃ hand ∈ combos, ∃ card ∈ hand, rankMap card.rank = none) :
    ∃ key, bestCombination best combos = .error (.keyError key) := by
  induction combos generalizing best with
  | nil =>
      obtain ⟨hand, member, _⟩ := unmapped
      cases member
  | cons first rest ih =>
      have later : ∀ hand ∈ rest, hand.length = 5 := fun hand member =>
        valid hand (List.mem_cons_of_mem _ member)
      rw [bestCombination, getHandRankAndKickers, if_neg (by simpa using valid first (by simp))]
      rcases rankIndices_cases first with ⟨indices, known, mapped⟩ | ⟨key, raised⟩
      · have remains : ∃ hand ∈ rest, ∃ card ∈ hand, rankMap card.rank = none := by
          obtain ⟨hand, member, card, inside, none⟩ := unmapped
          rcases List.mem_cons.mp member with rfl | other
          · exact absurd none (mapped card inside)
          · exact ⟨hand, other, card, inside, none⟩
        rw [known]
        dsimp only
        split
        · exact ih _ later remains
        · exact ih _ later remains
      · rw [raised]
        exact ⟨key, rfl⟩

theorem evaluateParsed_raises {hole community : List ParsedCard}
    (enough : 5 ≤ (hole ++ community).length)
    (unmapped : ∃ card ∈ hole ++ community, rankMap card.rank = none) :
    ∃ key, evaluateParsed hole community = .error (.keyError key) := by
  obtain ⟨card, member, none⟩ := unmapped
  obtain ⟨hand, picked, inside⟩ := Combinations.exists_mem_choose member (by omega) enough
  obtain ⟨key, raised⟩ := bestCombination_raises (Combinations.choose 5 (hole ++ community)) {}
    (fun hand picked => (Combinations.mem_choose.mp picked).2) ⟨hand, picked, card, inside, none⟩
  unfold evaluateParsed
  rw [raised]
  exact ⟨key, rfl⟩

/-! ### The replies -/

def Reply.isError : Reply → Bool
  | .error _ => true
  | .hand .. => false

/-- `evaluate_hand` returns, and its dictionary tells whether all texts are texts of cards. -/
def TellsCards (lib : CaseMap) (holeCards communityCards : List String) : Prop :=
  ∃ reply, evaluateHand lib holeCards communityCards = .ok reply ∧
    (reply.isError = true ↔ ∃ text ∈ holeCards ++ communityCards, isCardText text = false)

/-- On two and three to five texts `evaluate_hand` returns what it should exactly when all are
texts of cards, or the first text that `_parse_card` does not take is not empty. -/
theorem evaluateHand_tells_cards_iff (lib : CaseMap) (holeCards communityCards : List String)
    (two : holeCards.length = 2) (three : 3 ≤ communityCards.length)
    (few : communityCards.length ≤ 5) :
    TellsCards lib holeCards communityCards ↔
      (holeCards ++ communityCards).all isCardText = true ∨
        refusedFirst (holeCards ++ communityCards) = true := by
  have total : (holeCards ++ communityCards).length = 2 + communityCards.length := by
    rw [List.length_append, two]
  have foreign : ∀ {texts : List String}, texts.all isCardText = false →
      ∃ text ∈ texts, isCardText text = false := by
    intro texts some
    simpa using List.all_eq_false.mp some
  unfold TellsCards
  rw [evaluateHand_eq lib two three few]
  rcases parseCards_cases lib (holeCards ++ communityCards) with
    ⟨whole, _, cards, read, size⟩ | ⟨some, kept, parsed, read, size, card, inside, unmapped⟩ |
    ⟨some, refused, message, raised⟩ | ⟨some, kept, message, raised⟩
  · have enough : 5 ≤ (cards.take 2 ++ cards.drop 2).length := by
      rw [List.take_append_drop, size]
      omega
    obtain ⟨_, _, _, _, _, evaluated⟩ := evaluateParsed_hand enough
    rw [read]
    dsimp only
    rw [← List.map_take, ← List.map_drop, evaluated]
    refine iff_of_true ⟨_, rfl, ?_⟩ (Or.inl whole)
    refine iff_of_false Bool.false_ne_true ?_
    rintro ⟨text, member, unknown⟩
    rw [List.all_eq_true.mp whole text member] at unknown
    cases unknown
  · have enough : 5 ≤ (parsed.take 2 ++ parsed.drop 2).length := by
      rw [List.take_append_drop, size]
      omega
    obtain ⟨key, evaluated⟩ := evaluateParsed_raises enough
      ⟨card, by rwa [List.take_append_drop], unmapped⟩
    rw [read, some, kept]
    dsimp only
    rw [evaluated]
    simp
  · rw [raised, refused]
    exact iff_of_true ⟨_, rfl, iff_of_true rfl (foreign some)⟩ (Or.inr rfl)
  · rw [raised, some, kept]
    simp

/-- An empty text raises `IndexError`, a run of ranks `KeyError`. -/
theorem odd_texts_raise :
    evaluateHand asciiCase ["", "K♦"] ["2♥", "7♣", "9♠"] =
        .error (.indexError "string index out of range") ∧
      evaluateHand asciiCase ["23♠", "K♦"] ["2♥", "7♣", "9♠"] = .error (.keyError ['2', '3']) ∧
      ¬ TellsCards asciiCase ["", "K♦"] ["2♥", "7♣", "9♠"] ∧
      ¬ TellsCards asciiCase ["23♠", "K♦"] ["2♥", "7♣", "9♠"] := by
  have empty : evaluateHand asciiCase ["", "K♦"] ["2♥", "7♣", "9♠"] =
      .error (.indexError "string index out of range") := by decide
  have run : evaluateHand asciiCase ["23♠", "K♦"] ["2♥", "7♣", "9♠"] =
      .error (.keyError ['2', '3']) := by decide
  refine ⟨empty, run, ?_, ?_⟩
  · rintro ⟨reply, returned, _⟩
    rw [empty] at returned
    cases returned
  · rintro ⟨reply, returned, _⟩
    rw [run] at returned
    cases returned

/-- A text that is refused first is reported, also beside an empty one. -/
theorem evaluateHand_tells_cards_x : TellsCards asciiCase ["X♠", ""] ["2♥", "7♣", "9♠"] :=
  (evaluateHand_tells_cards_iff asciiCase ["X♠", ""] ["2♥", "7♣", "9♠"] rfl (by decide)
    (by decide)).mpr (Or.inr (by decide))

end Holdem.Team1
