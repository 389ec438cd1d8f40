import Holdem.HandClass
import Holdem.Team1Evaluator

set_option autoImplicit false

namespace Holdem.Team1

open StandardPoker

/-! ### Reading the text of a card -/

def rankLetter (rank : Nat) : Char := ranks.getD (rank - 2) '2'

def suitLetter : Suit → Char
  | .hearts => 'h'
  | .diamonds => 'd'
  | .clubs => 'c'
  | .spades => 's'

def ofCard (card : Card) : ParsedCard := ⟨[rankLetter card.rank], [suitLetter card.suit]⟩

theorem suitLetter_injective {left right : Suit} (same : suitLetter left = suitLetter right) :
    left = right := by
  cases left <;> cases right <;> first | rfl | cases same

theorem upper_rankName (lib : CaseMap) {rank : Nat} (low : 2 ≤ rank) (high : rank < 15) :
    (rankName rank).toList.flatMap lib.upper = (rankName rank).toList := by
  have plain : ∀ rank < 15, 2 ≤ rank → (rankName rank).toList.all (fun char =>
      decide (char.val < 128) && char.toUpper == char) = true := by decide
  have same : ∀ char ∈ (rankName rank).toList, lib.upper char = [char] := by
    intro char member
    have upper := List.all_eq_true.mp (plain rank high low) char member
    rw [Bool.and_eq_true, decide_eq_true_eq, beq_iff_eq] at upper
    rw [lib.upper_ascii char upper.1, upper.2]
  rw [List.flatMap_congr same]
  exact List.flatMap_singleton' _

/-- Ten is the one rank whose text is replaced; each rank then has its own letter. -/
theorem rankMap_rankLetter : ∀ rank < 15, 2 ≤ rank →
    (if (rankName rank).toList = ['1', '0'] then ['T'] else (rankName rank).toList) =
        [rankLetter rank] ∧
      Text.contains [rankLetter rank] ranks = true ∧
      rankMap [rankLetter rank] = some (rank - 2) := by
  decide

theorem suitMap_symbol (suit : Suit) :
    ∃ symbol, suit.symbol.toList = [symbol] ∧ suitMap.lookup symbol = some (suitLetter suit) ∧
      Text.contains [suitLetter suit] suits = true := by
  cases suit with
  | hearts => exact ⟨'♥', by decide⟩
  | diamonds => exact ⟨'♦', by decide⟩
  | clubs => exact ⟨'♣', by decide⟩
  | spades => exact ⟨'♠', by decide⟩

theorem parseCard_str (lib : CaseMap) (card : Card) :
    parseCard lib card.str = .ok (ofCard card) := by
  have high : card.rank < 15 := Nat.lt_succ_of_le card.rank_le
  obtain ⟨symbol, single, suit, suitKnown⟩ := suitMap_symbol card.suit
  obtain ⟨rank, rankKnown, _⟩ := rankMap_rankLetter card.rank high card.rank_ge
  have text : card.str.toList = (rankName card.rank).toList ++ [symbol] := by
    rw [← single]
    exact String.toList_append
  unfold parseCard
  rw [text, List.getLast?_concat, List.dropLast_concat, upper_rankName lib card.rank_ge high]
  dsimp only
  rw [rank, suit]
  simp [rankKnown, suitKnown, ofCard]

theorem parseCards_str (lib : CaseMap) (cards : List Card) :
    parseCards lib (cards.map Card.str) = .ok (cards.map ofCard) := by
  induction cards with
  | nil => rfl
  | cons card rest ih =>
      rw [List.map_cons, parseCards, parseCard_str, ih]
      rfl

/-! ### The ranks of a hand, counted from zero -/

/-- The sorted ranks as team1 numbers them. -/
def indices (cards : List Card) : List Nat := sortDescending (cards.map fun card => card.rank - 2)

theorem rankIndices_ofCard (cards : List Card) :
    rankIndices (cards.map ofCard) = .ok (cards.map fun card => card.rank - 2) := by
  induction cards with
  | nil => rfl
  | cons card rest ih =>
      have known := (rankMap_rankLetter card.rank (Nat.lt_succ_of_le card.rank_le) card.rank_ge).2.2
      rw [List.map_cons, rankIndices, ih]
      simp only [ofCard, known, List.map_cons]

theorem sortedRanks_eq_indices (cards : List Card) :
    sortedRanks cards = (indices cards).map (· + 2) := by
  have shifted : (cards.map fun card => card.rank - 2).map (· + 2) = cards.map Card.rank := by
    rw [List.map_map]
    apply List.map_congr_left
    intro card _
    exact Nat.sub_add_cancel card.rank_ge
  rw [sortedRanks_eq, ← shifted, indices, sortDescending, sortDescending]
  symm
  apply List.map_insertionSort
  intro left _ right _
  omega

theorem count_indices (cards : List Card) (index : Nat) :
    (indices cards).count index = (cards.map Card.rank).count (index + 2) := by
  rw [← (sortedRanks_perm cards).count_eq, sortedRanks_eq_indices]
  exact (List.count_map_of_injective _ _ (fun _ _ => Nat.add_right_cancel) index).symm

theorem counter_map {f : Nat → Nat} (apart : Function.Injective f) (values : List Nat) :
    counter (values.map f) = (counter values).map (Prod.map f id) := by
  let add (counts : List (Nat × Nat)) (rank : Nat) :=
    Dict.set counts rank ((counts.lookup rank).getD 0 + 1)
  have fold : ∀ counts : List (Nat × Nat), (values.map f).foldl add (counts.map (Prod.map f id)) =
      (values.foldl add counts).map (Prod.map f id) := by
    induction values with
    | nil => exact fun _ => rfl
    | cons value rest ih =>
        intro counts
        have first : add (counts.map (Prod.map f id)) (f value) =
            (add counts value).map (Prod.map f id) := by
          simp only [add, Dict.lookup_map_key apart, Dict.set_map_key apart]
        rw [List.map_cons, List.foldl_cons, List.foldl_cons, first, ih]
  exact fold []

theorem counts_eq_countPattern (cards : List Card) :
    sortDescending ((counter (indices cards)).map Prod.snd) = countPattern cards := by
  unfold countPattern
  rw [sortedRanks_eq_indices, counter_map fun _ _ => Nat.add_right_cancel, List.map_map]
  rfl

/-- Sorting by count and rank puts each rank of the list once, those held more often first. -/
theorem ranksByCount_counter (values : List Nat) :
    (ranksByCount (counter values)).Pairwise (fun left right =>
        toLex (values.count right, right) < toLex (values.count left, left)) ∧
      ∀ rank, rank ∈ ranksByCount (counter values) ↔ 0 < values.count rank := by
  obtain ⟨keys, _, _, lookups⟩ := counter_spec values
  have sorted := List.pairwise_insertionSort
    (fun left right => toLex (values.count right, right) ≤ toLex (values.count left, left))
    ((counter values).map Prod.fst)
  have same : ranksByCount (counter values) = ((counter values).map Prod.fst).insertionSort
      fun left right => toLex (values.count right, right) ≤ toLex (values.count left, left) := by
    simp only [ranksByCount, lookups]
  have perm : (ranksByCount (counter values)).Perm ((counter values).map Prod.fst) :=
    List.perm_insertionSort _ _
  rw [← same] at sorted
  refine ⟨?_, ?_⟩
  · apply (sorted.and (perm.nodup_iff.mpr keys)).imp
    rintro left right ⟨below, apart⟩
    apply lt_of_le_of_ne below
    intro equal
    exact apart (congrArg (fun pair => (ofLex pair).2) equal).symm
  · intro rank
    rw [perm.mem_iff, List.mem_map]
    constructor
    · rintro ⟨⟨key, count⟩, member, rfl⟩
      obtain ⟨some, counted⟩ := mem_counter.mp member
      rw [counted]
      exact some
    · intro some
      exact ⟨(rank, values.count rank), mem_counter.mpr ⟨some, rfl⟩, rfl⟩

section FiveCards

variable {cards : List Card}

/-- The suits of the hand are tested as by the core. -/
theorem suits_eq_suited (some : cards ≠ []) :
    (((cards.map ofCard).map ParsedCard.suit).dedup.length == 1) = suited cards := by
  have several : (cards.map ofCard).map ParsedCard.suit ≠ [] := by simpa using some
  rw [Bool.eq_iff_iff, beq_iff_eq, dedup_length_eq_one_iff several]
  simp only [List.map_map, List.mem_map, Function.comp_apply, ofCard, forall_exists_index, and_imp,
    forall_apply_eq_imp_iff₂, List.cons.injEq, and_true, suited, List.all_eq_true, beq_iff_eq]
  constructor
  · intro same left leftIn right rightIn
    exact suitLetter_injective (same left leftIn right rightIn)
  · intro same left leftIn right rightIn
    rw [same left leftIn right rightIn]

/-- Sorted by count and rank, the ranks stand as in the usual tie-break. -/
theorem ranksByCount_held (distinct : cards.Nodup) :
    (ranksByCount (counter (indices cards))).map (· + 2) =
      ranksHeld cards 4 ++ ranksHeld cards 3 ++ ranksHeld cards 2 ++ ranksHeld cards 1 := by
  obtain ⟨sorted, member⟩ := ranksByCount_counter (indices cards)
  have held : ∀ rank copies, rank ∈ ranksHeld cards copies ↔
      (2 ≤ rank ∧ rank ≤ 14) ∧ (cards.map Card.rank).count rank = copies := by
    intro rank copies
    rw [ranksHeld, List.mem_filter, mem_ranksDown, beq_iff_eq]
  have usual : ([4, 3, 2, 1].flatMap (ranksHeld cards)).Pairwise (fun left right =>
      toLex ((cards.map Card.rank).count right, right) <
        toLex ((cards.map Card.rank).count left, left)) := by
    rw [List.pairwise_flatMap]
    constructor
    · intro copies _
      apply (ranksHeld_decreasing cards copies).imp_of_mem
      intro left right leftIn rightIn below
      rw [Prod.Lex.toLex_lt_toLex, ((held _ _).mp leftIn).2, ((held _ _).mp rightIn).2]
      exact Or.inr ⟨rfl, below⟩
    · apply List.Pairwise.imp _ (show [4, 3, 2, 1].Pairwise (· > ·) by decide)
      intro more fewer above left leftIn right rightIn
      rw [Prod.Lex.toLex_lt_toLex, ((held _ _).mp leftIn).2, ((held _ _).mp rightIn).2]
      exact Or.inl above
  have joined : [4, 3, 2, 1].flatMap (ranksHeld cards) =
      ranksHeld cards 4 ++ ranksHeld cards 3 ++ ranksHeld cards 2 ++ ranksHeld cards 1 := by
    simp
  rw [← joined]
  apply List.Pairwise.eq_of_mem_iff _ usual
  · intro rank
    rw [List.mem_map, List.mem_flatMap]
    constructor
    · rintro ⟨index, inside, rfl⟩
      have positive := (member index).mp inside
      rw [count_indices] at positive
      have four := count_rank_le_four distinct (index + 2)
      obtain ⟨card, _, same⟩ := List.mem_map.mp (List.count_pos_iff.mp positive)
      refine ⟨(cards.map Card.rank).count (index + 2), ?_, ?_⟩
      · simp only [List.mem_cons, List.not_mem_nil, or_false]
        omega
      · exact (held _ _).mpr ⟨same ▸ ⟨card.rank_ge, card.rank_le⟩, rfl⟩
    · rintro ⟨copies, counted, inside⟩
      obtain ⟨⟨low, _⟩, same⟩ := (held rank copies).mp inside
      refine ⟨rank - 2, ?_, Nat.sub_add_cancel low⟩
      rw [member, count_indices, Nat.sub_add_cancel low, same]
      simp only [List.mem_cons, List.not_mem_nil, or_false] at counted
      omega
  · rw [List.pairwise_map]
    apply sorted.imp
    intro left right below
    rw [Prod.Lex.toLex_lt_toLex, count_indices, count_indices] at below
    rw [Prod.Lex.toLex_lt_toLex]
    omega

def nameOf : HandRank → HandName
  | .royalFlush | .straightFlush => .straightFlush
  | .fourOfAKind => .fourOfAKind
  | .fullHouse => .fullHouse
  | .flush => .flush
  | .straight => .straight
  | .threeOfAKind => .threeOfAKind
  | .twoPair => .twoPair
  | .onePair => .onePair
  | .highCard => .highCard

/-- How team1 writes a category with its tie-break. -/
def encode (rank : HandRank) (values : List Int) : Details :=
  match rank with
  | .royalFlush | .straightFlush | .straight => ⟨(nameOf rank).rank, values.headD 0, 0, []⟩
  | .fourOfAKind | .fullHouse => ⟨(nameOf rank).rank, values.headD 0, values.getD 1 0, []⟩
  | .threeOfAKind | .onePair => ⟨(nameOf rank).rank, values.headD 0, 0, values.tail⟩
  | .twoPair => ⟨(nameOf rank).rank, values.headD 0, values.getD 1 0, values.drop 2⟩
  | .flush | .highCard => ⟨(nameOf rank).rank, 0, 0, values⟩

/-- The tie-break in team1's numbers. -/
def tiebreakIndices (cards : List Card) : List Int :=
  (tiebreak cards).map fun rank : Nat => (rank : Int) - 2

theorem isStepped_iff {first second third fourth fifth : Nat} :
    isStepped [first, second, third, fourth, fifth] = true ↔
      first = second + 1 ∧ second = third + 1 ∧ third = fourth + 1 ∧ fourth = fifth + 1 := by
  simp only [isStepped, List.range, List.range.loop, List.all_cons, List.all_nil, Bool.and_true,
    Bool.and_eq_true, beq_iff_eq, List.getD_cons_zero, List.getD_cons_succ]
  omega

theorem kickersBeside_first {first : Nat} {rest : List Nat} (distinct : (first :: rest).Nodup)
    (sorted : rest.Pairwise (· ≥ ·)) :
    kickersBeside (first :: rest) first = rest.map Int.ofNat := by
  have others : (first :: rest).filter (fun other => other != first) = rest := by
    rw [List.filter_cons_of_neg (by simp), List.filter_eq_self]
    intro other member
    rw [bne_iff_ne]
    rintro rfl
    exact (List.nodup_cons.mp distinct).1 member
  unfold kickersBeside sortDescending
  rw [others, sorted.insertionSort_eq]

theorem indices_nodup_iff : (indices cards).Nodup ↔ (cards.map Card.rank).Nodup := by
  rw [← (sortedRanks_perm cards).nodup_iff, sortedRanks_eq_indices]
  exact (List.nodup_map_iff fun _ _ => Nat.add_right_cancel).symm

theorem not_straight_of_repeat (five : cards.length = 5)
    (repeated : ¬ (cards.map Card.rank).Nodup) :
    isStepped (indices cards) = false ∧ indices cards ≠ wheel := by
  have size : (indices cards).length = 5 := by
    rw [indices, sortDescending, List.length_insertionSort, List.length_map, five]
  rw [← indices_nodup_iff] at repeated
  constructor
  · by_contra straight
    rw [Bool.not_eq_false] at straight
    obtain ⟨first, second, third, fourth, fifth, held⟩ := exists_of_length_five size
    rw [held] at straight repeated
    have steps := isStepped_iff.mp straight
    apply repeated
    simp only [List.nodup_cons, List.mem_cons, List.not_mem_nil, or_false, not_or,
      not_false_eq_true, List.nodup_nil, and_true]
    omega
  · intro lowest
    rw [lowest] at repeated
    exact repeated (by decide)

def detailsOf (cards : List Card) : Details :=
  rankDetails (indices cards) ((cards.map ofCard).map ParsedCard.suit)

theorem getHandRankAndKickers_ofCard (five : cards.length = 5) :
    getHandRankAndKickers (cards.map ofCard) = .ok (detailsOf cards) := by
  unfold getHandRankAndKickers
  rw [if_neg (by simp [five]), rankIndices_ofCard]
  rfl

theorem tiebreakIndices_of_broken (distinct : cards.Nodup) (broken : straightTop cards = none) :
    tiebreakIndices cards = (ranksByCount (counter (indices cards))).map Int.ofNat := by
  unfold tiebreakIndices
  rw [tiebreak_of_broken broken, ← ranksByCount_held distinct, List.map_map]
  apply List.map_congr_left
  intro index _
  simp

theorem ranksByCount_nodup (values : List Nat) : (ranksByCount (counter values)).Nodup := by
  apply (ranksByCount_counter values).1.imp
  rintro left right below rfl
  exact absurd below (lt_irrefl _)

/-- When one rank leads the ranks held once, these are its kickers as they stand. -/
theorem kickers_of_lead {sorted lead : List Nat} (nodup : sorted.Nodup) (one : lead.length = 1)
    (held : sorted.map (· + 2) = lead ++ ranksHeld cards 1) :
    ∃ first rest, sorted = first :: rest ∧ kickersBeside sorted first = rest.map Int.ofNat := by
  obtain ⟨rank, rfl⟩ := List.length_eq_one_iff.mp one
  cases sorted with
  | nil => cases held
  | cons first rest =>
      have decreasing := ranksHeld_decreasing cards 1
      rw [List.map_cons, List.singleton_append] at held
      rw [← (List.cons.inj held).2, List.pairwise_map] at decreasing
      refine ⟨first, rest, rfl, kickersBeside_first nodup ?_⟩
      apply decreasing.imp
      omega

theorem detailsOf_of_repeat (five : cards.length = 5) (distinct : cards.Nodup)
    (several : countPattern cards ≠ [1, 1, 1, 1, 1]) :
    detailsOf cards = encode (category cards) (tiebreakIndices cards) := by
  have nonempty : cards ≠ [] := by
    rintro rfl
    cases five
  obtain ⟨repeated, mixed, _, broken⟩ := broken_of_repeat five distinct several
  obtain ⟨stepless, above⟩ := not_straight_of_repeat five repeated
  have held := ranksByCount_held distinct
  have nodup := ranksByCount_nodup (indices cards)
  have absent := ranksHeld_eq_nil cards
  have size : (ranksByCount (counter (indices cards))).length = (countPattern cards).count 4 +
      (countPattern cards).count 3 + (countPattern cards).count 2 +
      (countPattern cards).count 1 := by
    obtain ⟨fours, threes, twos, ones⟩ := ranksHeld_lengths cards
    rw [← fours, ← threes, ← twos, ← ones]
    have total := congrArg List.length held
    simp only [List.length_map, List.length_append] at total
    exact total
  obtain ⟨_, threes, twos, _⟩ := ranksHeld_lengths cards
  rw [tiebreakIndices_of_broken distinct broken, category_of_plain mixed broken]
  unfold detailsOf rankDetails
  simp only [suits_eq_suited nonempty, mixed, stepless, beq_false_of_ne above,
    counts_eq_countPattern, Bool.not_false, Bool.and_false, Bool.or_false, Bool.false_eq_true, if_false]
  generalize ranksByCount (counter (indices cards)) = sorted at held nodup size ⊢
  rcases countPattern_cases five distinct with found | found | found | found | found | found
  · rw [found] at size ⊢
    obtain ⟨first, second, rfl⟩ := List.length_eq_two.mp size
    rfl
  · rw [found] at size ⊢
    obtain ⟨first, second, rfl⟩ := List.length_eq_two.mp size
    rfl
  · rw [found] at size absent threes ⊢
    rw [absent 4 (by decide) rfl, absent 2 (by decide) rfl, List.nil_append,
      List.append_nil] at held
    obtain ⟨first, rest, rfl, beside⟩ := kickers_of_lead nodup threes held
    simp only [List.getD_cons_zero, beside]
    rfl
  · rw [found] at size absent twos ⊢
    obtain ⟨high, low, both⟩ := List.length_eq_two.mp twos
    obtain ⟨first, second, third, rfl⟩ := List.length_eq_three.mp size
    rw [absent 4 (by decide) rfl, absent 3 (by decide) rfl, both] at held
    have above : low < high := by
      have decreasing := ranksHeld_decreasing cards 2
      rw [both] at decreasing
      exact List.rel_of_pairwise_cons decreasing (by simp)
    simp only [List.map_cons, List.nil_append, List.cons_append, List.cons.injEq] at held
    have ordered : (second : Int) ≤ first := by omega
    simp only [List.getD_cons_zero, List.getD_cons_succ, max_eq_left ordered, min_eq_right ordered]
    rfl
  · rw [found] at size absent twos ⊢
    rw [absent 4 (by decide) rfl, absent 3 (by decide) rfl, List.nil_append,
      List.nil_append] at held
    obtain ⟨first, rest, rfl, beside⟩ := kickers_of_lead nodup twos held
    simp only [List.getD_cons_zero, beside]
    rfl
  · exact absurd found several

/-- The top of a straight, read off team1's numbers. -/
theorem straightTop_of_indices {first second third fourth fifth : Nat}
    (held : [first, second, third, fourth, fifth].map (· + 2) = ranksHeld cards 1) :
    straightTop cards = if [first, second, third, fourth, fifth] = wheel then some 5
      else if isStepped [first, second, third, fourth, fifth] then some (first + 2)
      else none := by
  have lowest : [first, second, third, fourth, fifth].map (· + 2) = [14, 5, 4, 3, 2] ↔
      [first, second, third, fourth, fifth] = wheel := by
    rw [show wheel = [12, 3, 2, 1, 0] by decide]
    simp
  unfold straightTop
  rw [← held]
  simp only [List.map_cons, List.map_nil] at lowest ⊢
  simp only [lowest, isStepped_iff]
  congr 2
  apply propext
  omega

theorem detailsOf_of_singles (five : cards.length = 5)
    (singles : countPattern cards = [1, 1, 1, 1, 1]) :
    detailsOf cards = encode (category cards) (tiebreakIndices cards) := by
  have nonempty : cards ≠ [] := by
    rintro rfl
    cases five
  obtain ⟨usual, decider⟩ := category_of_singles singles
  have listed := sortedRanks_of_singles five singles
  have counts := counts_eq_countPattern cards
  have size : (indices cards).length = 5 := by
    rw [indices, sortDescending, List.length_insertionSort, List.length_map, five]
  obtain ⟨first, second, third, fourth, fifth, held⟩ := exists_of_length_five size
  rw [sortedRanks_eq_indices, held] at listed
  rw [held, singles] at counts
  have top := straightTop_of_indices listed
  unfold detailsOf rankDetails
  simp only [suits_eq_suited nonempty, held]
  rw [usual]
  by_cases lowest : [first, second, third, fourth, fifth] = wheel
  · rw [if_pos lowest] at top
    have decided : tiebreakIndices cards = [3] := by
      rw [tiebreakIndices, tiebreak, top]
      rfl
    rw [decided, lowest, top]
    cases suited cards
    · rfl
    · rfl
  · rw [if_neg lowest] at top
    simp only [beq_false_of_ne lowest, Bool.and_false, Bool.or_false, Bool.false_eq_true, if_false,
      counts]
    cases run : isStepped [first, second, third, fourth, fifth]
    · rw [run, if_neg (by decide)] at top
      have decided : tiebreakIndices cards =
          [first, second, third, fourth, fifth].map Int.ofNat := by
        rw [tiebreakIndices, decider top, ← listed]
        simp
      rw [decided, top]
      cases suited cards
      · rfl
      · rfl
    · rw [run, if_pos rfl] at top
      have decided : tiebreakIndices cards = [(first : Int)] := by
        rw [tiebreakIndices, tiebreak, top]
        simp
      rw [decided, top]
      cases suited cards
      · rfl
      · by_cases royal : first + 2 = 14
        · simp [royal, encode, nameOf]
        · simp [royal, encode, nameOf]

theorem detailsOf_eq (five : cards.length = 5) (distinct : cards.Nodup) :
    detailsOf cards = encode (category cards) (tiebreakIndices cards) := by
  by_cases singles : countPattern cards = [1, 1, 1, 1, 1]
  · exact detailsOf_of_singles five singles
  · exact detailsOf_of_repeat five distinct singles

end FiveCards

end Holdem.Team1
