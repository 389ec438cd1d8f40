import Holdem.StandardPoker
import Mathlib.Algebra.GroupWithZero.Nat
import Mathlib.Data.Finset.Card
import Mathlib.Data.List.Dedup

set_option autoImplicit false

namespace Holdem

open StandardPoker

/-! ### Counting ranks -/

theorem counter_foldl (ranks : List Nat) (counts : List (Nat × Nat))
    (distinct : (counts.map Prod.fst).Nodup) (positive : ∀ count ∈ counts.map Prod.snd, 0 < count) :
    let result := ranks.foldl (fun counts rank =>
      Dict.set counts rank ((counts.lookup rank).getD 0 + 1)) counts
    (result.map Prod.fst).Nodup ∧ (∀ count ∈ result.map Prod.snd, 0 < count) ∧
      (result.map Prod.snd).sum = (counts.map Prod.snd).sum + ranks.length ∧
      ∀ rank, (result.lookup rank).getD 0 = (counts.lookup rank).getD 0 + ranks.count rank := by
  induction ranks generalizing counts with
  | nil => exact ⟨distinct, positive, rfl, fun rank => rfl⟩
  | cons first rest ih =>
      have grown := ih (Dict.set counts first ((counts.lookup first).getD 0 + 1))
        (Dict.nodup_keys_set distinct _ _) ?_
      · obtain ⟨keys, values, sum, lookups⟩ := grown
        refine ⟨keys, values, ?_, ?_⟩
        · rw [List.foldl_cons, sum, Dict.sum_set_add, List.length_cons]
          omega
        · intro rank
          rw [List.foldl_cons, lookups, Dict.lookup_set, List.count_cons]
          by_cases same : first = rank
          · subst same
            simp only [↓reduceIte, Option.getD_some, beq_self_eq_true]
            omega
          · simp [same]
      · intro count member
        rcases Dict.mem_values_of_set member with rfl | old
        · omega
        · exact positive count old

theorem counter_spec (ranks : List Nat) :
    ((counter ranks).map Prod.fst).Nodup ∧ (∀ count ∈ (counter ranks).map Prod.snd, 0 < count) ∧
      ((counter ranks).map Prod.snd).sum = ranks.length ∧
      ∀ rank, ((counter ranks).lookup rank).getD 0 = ranks.count rank := by
  have built := counter_foldl ranks [] (by simp) (by simp)
  simpa [counter] using built

theorem mem_counter {ranks : List Nat} {rank count : Nat} :
    (rank, count) ∈ counter ranks ↔ 0 < count ∧ ranks.count rank = count := by
  obtain ⟨keys, positive, _, lookups⟩ := counter_spec ranks
  have found := lookups rank
  rw [← Dict.lookup_eq_some_iff_mem keys]
  constructor
  · intro present
    rw [present] at found
    refine ⟨positive count ?_, found.symm⟩
    exact List.mem_map.mpr ⟨_, (Dict.lookup_eq_some_iff_mem keys).mp present, rfl⟩
  · rintro ⟨some, same⟩
    rw [same] at found
    cases present : (counter ranks).lookup rank with
    | none =>
        rw [present] at found
        simp only [Option.getD_none] at found
        omega
    | some value =>
        rw [present] at found
        rw [← found]
        rfl

theorem mem_ranksCounted {ranks : List Nat} {rank wanted : Nat} (positive : 0 < wanted) :
    rank ∈ ranksCounted (counter ranks) wanted ↔ ranks.count rank = wanted := by
  unfold ranksCounted
  constructor
  · intro member
    obtain ⟨⟨other, count⟩, inside, rfl⟩ := List.mem_map.mp member
    obtain ⟨present, counted⟩ := List.mem_filter.mp inside
    rw [beq_iff_eq] at counted
    exact (mem_counter.mp present).2.trans counted
  · intro counted
    refine List.mem_map.mpr ⟨(rank, wanted), ?_, rfl⟩
    exact List.mem_filter.mpr ⟨mem_counter.mpr ⟨positive, counted⟩, by simp⟩

theorem ranksCounted_nodup (ranks : List Nat) (wanted : Nat) :
    (ranksCounted (counter ranks) wanted).Nodup :=
  (counter_spec ranks).1.sublist (List.filter_sublist.map Prod.fst)

theorem sortDescending_pairwise (values : List Nat) :
    (sortDescending values).Pairwise (· ≥ ·) :=
  List.pairwise_insertionSort _ values

theorem sortDescending_strict {values : List Nat} (distinct : values.Nodup) :
    (sortDescending values).Pairwise (· > ·) := by
  have sorted := sortDescending_pairwise values
  have apart : (sortDescending values).Nodup := (List.perm_insertionSort _ values).nodup_iff.mpr distinct
  refine (sorted.and apart).imp ?_
  rintro left right ⟨above, different⟩
  omega

/-! ### The pattern of a hand -/

def sortedRanks (cards : List Card) : List Nat := (sortByRank cards).map Card.rank

/-- `count_values`: how often the ranks of a hand occur, highest first. -/
def countPattern (cards : List Card) : List Nat :=
  sortDescending ((counter (sortedRanks cards)).map Prod.snd)

section Patterns

variable {cards : List Card}

theorem sortedRanks_eq (cards : List Card) :
    sortedRanks cards = sortDescending (cards.map Card.rank) :=
  List.map_insertionSort _ _ Card.rank cards fun _ _ _ _ => Iff.rfl

theorem sortedRanks_perm (cards : List Card) : (sortedRanks cards).Perm (cards.map Card.rank) := by
  rw [sortedRanks_eq]
  exact List.perm_insertionSort _ _

/-- The ranks the code counts so often are the ranks the hand holds so often. -/
theorem sorted_ranksCounted (cards : List Card) {copies : Nat} (positive : 0 < copies) :
    sortDescending (ranksCounted (counter (sortedRanks cards)) copies) =
      ranksHeld cards copies := by
  apply (sortDescending_strict (ranksCounted_nodup _ _)).eq_of_mem_iff (ranksHeld_decreasing cards copies)
  intro rank
  unfold sortDescending ranksHeld
  rw [List.mem_insertionSort, mem_ranksCounted positive, (sortedRanks_perm cards).count_eq,
    List.mem_filter, beq_iff_eq, mem_ranksDown]
  constructor
  · intro counted
    refine ⟨?_, counted⟩
    have member : rank ∈ cards.map Card.rank := List.count_pos_iff.mp (by omega)
    obtain ⟨card, _, rfl⟩ := List.mem_map.mp member
    exact ⟨card.rank_ge, card.rank_le⟩
  · exact fun held => held.2

theorem length_ranksCounted (cards : List Card) (copies : Nat) :
    (ranksCounted (counter (sortedRanks cards)) copies).length =
      (countPattern cards).count copies := by
  unfold ranksCounted countPattern sortDescending
  rw [List.length_map, ← List.countP_eq_length_filter, (List.perm_insertionSort _ _).count_eq,
    List.count, List.countP_map]
  rfl

theorem length_ranksHeld (cards : List Card) {copies : Nat} (positive : 0 < copies) :
    (ranksHeld cards copies).length = (countPattern cards).count copies := by
  rw [← sorted_ranksCounted cards positive, sortDescending, List.length_insertionSort,
    length_ranksCounted]

theorem headD_ranksCounted (cards : List Card) (copies : Nat) (positive : 0 < copies)
    (once : (countPattern cards).count copies = 1) :
    ranksHeld cards copies = [(ranksCounted (counter (sortedRanks cards)) copies).headD 0] := by
  have sorted := sorted_ranksCounted cards positive
  have size := length_ranksHeld cards positive
  rw [once, ← sorted, sortDescending, List.length_insertionSort] at size
  obtain ⟨rank, only⟩ := List.length_eq_one_iff.mp size
  rw [← sorted, only]
  rfl

theorem ranksHeld_eq_nil (cards : List Card) (copies : Nat) (positive : 0 < copies)
    (absent : (countPattern cards).count copies = 0) : ranksHeld cards copies = [] :=
  List.eq_nil_of_length_eq_zero ((length_ranksHeld cards positive).trans absent)

theorem count_rank_le_four (distinct : cards.Nodup) (rank : Nat) :
    (cards.map Card.rank).count rank ≤ 4 := by
  have suits : ((cards.filter fun card => card.rank == rank).map Card.suit).Nodup := by
    apply List.Nodup.map_on _ (distinct.filter _)
    intro left leftIn right rightIn same
    have leftRank := (List.mem_filter.mp leftIn).2
    have rightRank := (List.mem_filter.mp rightIn).2
    rw [beq_iff_eq] at leftRank rightRank
    exact Card.ext_rank_suit (leftRank.trans rightRank.symm) same
  have inside : (cards.filter fun card => card.rank == rank).map Card.suit ⊆ Suit.all := by
    intro suit _
    cases suit <;> decide
  have few := (List.subperm_of_subset suits inside).length_le
  rw [List.count, List.countP_map, List.countP_eq_length_filter]
  rw [List.length_map] at few
  exact few

/-- The ways to split five into parts of at most four. -/
theorem partition_of_five {values : List Nat} (sorted : values.Pairwise (· ≥ ·))
    (positive : ∀ value ∈ values, 0 < value) (small : ∀ value ∈ values, value ≤ 4)
    (sum : values.sum = 5) :
    values = [4, 1] ∨ values = [3, 2] ∨ values = [3, 1, 1] ∨ values = [2, 2, 1] ∨
      values = [2, 1, 1, 1] ∨ values = [1, 1, 1, 1, 1] := by
  rcases values with _ | ⟨a, _ | ⟨b, _ | ⟨c, _ | ⟨d, _ | ⟨e, _ | ⟨f, rest⟩⟩⟩⟩⟩⟩ <;>
    simp only [List.pairwise_cons, List.mem_cons, List.not_mem_nil, or_false, forall_eq_or_imp,
      forall_eq, List.sum_cons, List.sum_nil, List.cons.injEq, reduceCtorEq, and_true, and_false,
      false_or, or_false, List.Pairwise.nil] at * <;> omega

theorem countPattern_cases (five : cards.length = 5) (distinct : cards.Nodup) :
    countPattern cards = [4, 1] ∨ countPattern cards = [3, 2] ∨ countPattern cards = [3, 1, 1] ∨
      countPattern cards = [2, 2, 1] ∨ countPattern cards = [2, 1, 1, 1] ∨
      countPattern cards = [1, 1, 1, 1, 1] := by
  obtain ⟨_, positive, sum, _⟩ := counter_spec (sortedRanks cards)
  have perm := List.perm_insertionSort (fun left right : Nat => right ≤ left)
    ((counter (sortedRanks cards)).map Prod.snd)
  apply partition_of_five (sortDescending_pairwise _)
  · intro value member
    exact positive value (perm.mem_iff.mp member)
  · intro value member
    obtain ⟨⟨rank, count⟩, inside, rfl⟩ := List.mem_map.mp (perm.mem_iff.mp member)
    rw [← (mem_counter.mp inside).2, (sortedRanks_perm cards).count_eq]
    exact count_rank_le_four distinct rank
  · refine perm.sum_eq.trans (sum.trans ?_)
    rw [(sortedRanks_perm cards).length_eq, List.length_map, five]

theorem sortedRanks_length (five : cards.length = 5) : (sortedRanks cards).length = 5 := by
  rw [(sortedRanks_perm cards).length_eq, List.length_map, five]

theorem ranks_repeat {copies : Nat} (several : 2 ≤ copies)
    (counted : copies ∈ countPattern cards) : ¬ (cards.map Card.rank).Nodup := by
  intro distinct
  have present : 0 < (ranksHeld cards copies).length := by
    rw [length_ranksHeld cards (by omega)]
    exact List.count_pos_iff.mpr counted
  obtain ⟨rank, member⟩ := List.exists_mem_of_length_pos present
  have held := (List.mem_filter.mp member).2
  rw [beq_iff_eq] at held
  have once := List.nodup_iff_count_le_one.mp distinct rank
  omega

theorem ranks_nodup_of_suited (distinct : cards.Nodup) (flush : suited cards = true) :
    (cards.map Card.rank).Nodup := by
  apply List.Nodup.map_on _ distinct
  intro left leftIn right rightIn same
  simp only [suited, List.all_eq_true, beq_iff_eq] at flush
  exact Card.ext_rank_suit same (flush left leftIn right rightIn)

theorem exists_of_length_five {values : List Nat} (five : values.length = 5) :
    ∃ first second third fourth fifth, values = [first, second, third, fourth, fifth] := by
  match values, five with
  | [first, second, third, fourth, fifth], _ => exact ⟨_, _, _, _, _, rfl⟩

theorem dedup_length_eq_one_iff {α : Type} [DecidableEq α] {items : List α} (some : items ≠ []) :
    items.dedup.length = 1 ↔ ∀ left ∈ items, ∀ right ∈ items, left = right := by
  have present : 0 < items.dedup.length := List.length_pos_iff.mpr (by simpa using some)
  have single : items.dedup.length ≤ 1 ↔ ∀ left ∈ items, ∀ right ∈ items, left = right := by
    rw [← List.card_toFinset, Finset.card_le_one]
    simp only [List.mem_toFinset]
  rw [← single]
  omega

theorem flush_eq_suited (some : cards ≠ []) :
    (((sortByRank cards).map Card.suit).dedup.length == 1) = suited cards := by
  have perm : ((sortByRank cards).map Card.suit).Perm (cards.map Card.suit) :=
    (List.perm_insertionSort _ cards).map Card.suit
  have several : (sortByRank cards).map Card.suit ≠ [] := by
    rw [← List.length_pos_iff, perm.length_eq, List.length_map]
    exact List.length_pos_iff.mpr some
  rw [Bool.eq_iff_iff, beq_iff_eq, dedup_length_eq_one_iff several]
  simp only [perm.mem_iff]
  simp [suited]

theorem isStraight_of_repeat {ranks : List Nat} (five : ranks.length = 5)
    (repeated : ¬ ranks.Nodup) : isStraight ranks = false := by
  unfold isStraight
  split
  · rename_i first second third fourth fifth sorted
    have size := congrArg List.length sorted
    rw [sortDescending, List.length_insertionSort] at size
    have whole := (List.dedup_sublist ranks).eq_of_length (by rw [size, five]; rfl)
    exact absurd (List.dedup_eq_self.mp whole) repeated
  · rfl

theorem straightTop_of_few (few : (ranksHeld cards 1).length ≠ 5) : straightTop cards = none := by
  unfold straightTop
  split
  · rename_i held
    rw [held] at few
    exact absurd rfl few
  · rfl

theorem sortedRanks_of_singles (five : cards.length = 5)
    (singles : countPattern cards = [1, 1, 1, 1, 1]) : sortedRanks cards = ranksHeld cards 1 := by
  have size : (ranksHeld cards 1).length = 5 := by
    rw [length_ranksHeld cards (by decide), singles]
    rfl
  have inside : ranksHeld cards 1 ⊆ sortedRanks cards := fun rank member =>
    (sortedRanks_perm cards).mem_iff.mpr (mem_ranks_of_mem_ranksHeld (by decide) member)
  have decreasing := ranksHeld_decreasing cards 1
  have distinct : (ranksHeld cards 1).Nodup := decreasing.imp fun above => by omega
  have perm := (List.subperm_of_subset distinct inside).perm_of_length_le
    (by rw [size, sortedRanks_length five])
  have sorted := sortDescending_pairwise (cards.map Card.rank)
  rw [← sortedRanks_eq] at sorted
  exact perm.symm.eq_of_pairwise' sorted (decreasing.imp fun above => by omega)

/-- On five distinct ranks the code and the usual rules agree on straights and their tops. -/
theorem straight_of_singles {first second third fourth fifth : Nat}
    (held : ranksHeld cards 1 = [first, second, third, fourth, fifth]) :
    isStraight (ranksHeld cards 1) = (straightTop cards).isSome ∧
      ∀ top, straightTop cards = some top → straightHigh (ranksHeld cards 1) = top ∧
        (first = 14 ↔ top = 14 ∨ top = 5) := by
  have decreasing := ranksHeld_decreasing cards 1
  have lowest : 2 ≤ fifth := by
    have member : fifth ∈ ranksHeld cards 1 := by simp [held]
    exact (mem_ranksDown.mp (List.mem_of_mem_filter member)).1
  have distinct : (ranksHeld cards 1).Nodup := decreasing.imp fun above => by omega
  have sorted : sortDescending (ranksHeld cards 1).dedup = ranksHeld cards 1 := by
    rw [distinct.dedup]
    exact (decreasing.imp fun above => Nat.le_of_lt above).insertionSort_eq
  unfold isStraight straightTop straightHigh
  rw [sorted, held]
  rw [held] at decreasing
  simp only [List.pairwise_cons, List.mem_cons, List.not_mem_nil, or_false, forall_eq_or_imp,
    forall_eq, false_imp_iff, implies_true, List.Pairwise.nil, and_true] at decreasing
  dsimp only
  by_cases wheel : [first, second, third, fourth, fifth] = [14, 5, 4, 3, 2]
  · simp only [List.cons.injEq, and_true] at wheel
    obtain ⟨rfl, rfl, rfl, rfl, rfl⟩ := wheel
    refine ⟨rfl, ?_⟩
    intro top found
    cases found
    exact ⟨rfl, by decide⟩
  · rw [if_neg wheel, beq_false_of_ne wheel, if_pos wheel]
    have steps : first - fifth = 4 ↔ first = second + 1 ∧ second = third + 1 ∧
        third = fourth + 1 ∧ fourth = fifth + 1 := by omega
    by_cases run : first - fifth = 4
    · rw [if_pos (steps.mp run), run]
      refine ⟨rfl, ?_⟩
      intro top found
      cases found
      rw [List.headD_cons]
      omega
    · rw [if_neg (fun all => run (steps.mpr all)), beq_false_of_ne run]
      refine ⟨rfl, ?_⟩
      intro top found
      cases found

end Patterns

def HandRank.kickerCount : HandRank → Nat
  | .royalFlush => 1
  | .straightFlush => 1
  | .fourOfAKind => 2
  | .fullHouse => 2
  | .flush => 5
  | .straight => 1
  | .threeOfAKind => 3
  | .twoPair => 3
  | .onePair => 4
  | .highCard => 5

section Classes

variable {cards : List Card}

/-- With a repeated rank there is neither a flush nor a straight. -/
theorem plain_of_repeat (five : cards.length = 5) (distinct : cards.Nodup) {copies : Nat}
    (several : 2 ≤ copies) (counted : copies ∈ countPattern cards) :
    suited cards = false ∧ isStraight (sortedRanks cards) = false := by
  have repeated := ranks_repeat several counted
  refine ⟨?_, ?_⟩
  · by_contra flush
    exact repeated (ranks_nodup_of_suited distinct (by simpa using flush))
  · apply isStraight_of_repeat (sortedRanks_length five)
    rwa [(sortedRanks_perm cards).nodup_iff]

/-- The lengths that tell the category of a hand, read off its pattern. -/
theorem ranksHeld_lengths (cards : List Card) :
    (ranksHeld cards 4).length = (countPattern cards).count 4 ∧
      (ranksHeld cards 3).length = (countPattern cards).count 3 ∧
      (ranksHeld cards 2).length = (countPattern cards).count 2 ∧
      (ranksHeld cards 1).length = (countPattern cards).count 1 :=
  ⟨length_ranksHeld cards (by decide), length_ranksHeld cards (by decide),
    length_ranksHeld cards (by decide), length_ranksHeld cards (by decide)⟩

/-- The usual category of a hand that is neither flush nor straight. -/
theorem category_of_plain (mixed : suited cards = false) (broken : straightTop cards = none) :
    category cards =
      if (countPattern cards).count 4 = 1 then .fourOfAKind
      else if (countPattern cards).count 3 = 1 ∧ (countPattern cards).count 2 = 1 then .fullHouse
      else if (countPattern cards).count 3 = 1 then .threeOfAKind
      else if (countPattern cards).count 2 = 2 then .twoPair
      else if (countPattern cards).count 2 = 1 then .onePair
      else .highCard := by
  obtain ⟨fours, threes, twos, _⟩ := ranksHeld_lengths cards
  unfold category
  simp [mixed, broken, fours, threes, twos]

theorem broken_of_repeat (five : cards.length = 5) (distinct : cards.Nodup)
    (pattern : countPattern cards ≠ [1, 1, 1, 1, 1]) :
    ¬ (cards.map Card.rank).Nodup ∧ suited cards = false ∧
      isStraight (sortedRanks cards) = false ∧ straightTop cards = none := by
  have several : (∃ copies, 2 ≤ copies ∧ copies ∈ countPattern cards) ∧
      (countPattern cards).count 1 ≠ 5 := by
    rcases countPattern_cases five distinct with found | found | found | found | found | found
    · rw [found]
      exact ⟨⟨4, by decide⟩, by decide⟩
    · rw [found]
      exact ⟨⟨3, by decide⟩, by decide⟩
    · rw [found]
      exact ⟨⟨3, by decide⟩, by decide⟩
    · rw [found]
      exact ⟨⟨2, by decide⟩, by decide⟩
    · rw [found]
      exact ⟨⟨2, by decide⟩, by decide⟩
    · exact absurd found pattern
  obtain ⟨⟨copies, two, counted⟩, few⟩ := several
  obtain ⟨mixed, unordered⟩ := plain_of_repeat five distinct two counted
  obtain ⟨_, _, _, ones⟩ := ranksHeld_lengths cards
  exact ⟨ranks_repeat two counted, mixed, unordered, straightTop_of_few (by rwa [ones])⟩

theorem tiebreak_of_broken (broken : straightTop cards = none) : tiebreak cards =
    ranksHeld cards 4 ++ ranksHeld cards 3 ++ ranksHeld cards 2 ++ ranksHeld cards 1 := by
  unfold tiebreak
  rw [broken]

theorem category_of_singles (singles : countPattern cards = [1, 1, 1, 1, 1]) :
    category cards =
        (if suited cards = true ∧ straightTop cards = some 14 then .royalFlush
        else if suited cards = true ∧ (straightTop cards).isSome = true then .straightFlush
        else if suited cards = true then .flush
        else if (straightTop cards).isSome = true then .straight
        else .highCard) ∧
      (straightTop cards = none → tiebreak cards = ranksHeld cards 1) := by
  have absent := ranksHeld_eq_nil cards
  rw [singles] at absent
  constructor
  · unfold category
    simp [absent 4 (by decide) rfl, absent 3 (by decide) rfl, absent 2 (by decide) rfl]
  · intro broken
    rw [tiebreak_of_broken broken, absent 4 (by decide) rfl, absent 3 (by decide) rfl,
      absent 2 (by decide) rfl]
    rfl

/-- The classes with a repeated rank: what the code returns is the usual category and
tie-break. -/
theorem classifyFive_of_repeat (five : cards.length = 5) (distinct : cards.Nodup)
    (pattern : countPattern cards = [4, 1] ∨ countPattern cards = [3, 2] ∨
      countPattern cards = [3, 1, 1] ∨ countPattern cards = [2, 2, 1] ∨
      countPattern cards = [2, 1, 1, 1]) :
    (classifyFive cards).rank = category cards ∧ (classifyFive cards).kickers = tiebreak cards ∧
      (tiebreak cards).length = (category cards).kickerCount := by
  have nonempty : cards ≠ [] := by
    rintro rfl
    cases five
  have several : countPattern cards ≠ [1, 1, 1, 1, 1] := by
    rcases pattern with pattern | pattern | pattern | pattern | pattern <;> rw [pattern] <;> decide
  obtain ⟨_, mixed, unordered, broken⟩ := broken_of_repeat five distinct several
  obtain ⟨fours, threes, twos, ones⟩ := ranksHeld_lengths cards
  have usual := category_of_plain mixed broken
  have decider := tiebreak_of_broken broken
  have flush := flush_eq_suited nonempty
  rw [mixed] at flush
  have straight : isStraight ((sortByRank cards).map Card.rank) = false := unordered
  have counts : sortDescending ((counter ((sortByRank cards).map Card.rank)).map Prod.snd) =
    countPattern cards := rfl
  have sizes : (tiebreak cards).length = (countPattern cards).count 4 +
      (countPattern cards).count 3 + (countPattern cards).count 2 +
      (countPattern cards).count 1 := by
    rw [decider]
    simp only [List.length_append, fours, threes, twos, ones]
  refine ⟨?_, ?_, ?_⟩
  · rw [usual]
    unfold classifyFive
    simp only [flush, straight, counts]
    rcases pattern with pattern | pattern | pattern | pattern | pattern <;> rw [pattern] <;> rfl
  · rw [decider]
    unfold classifyFive
    simp only [flush, straight, counts]
    have single := headD_ranksCounted cards
    have absent := ranksHeld_eq_nil cards
    have once := sorted_ranksCounted cards Nat.zero_lt_one
    have twice := sorted_ranksCounted cards Nat.zero_lt_two
    rcases pattern with pattern | pattern | pattern | pattern | pattern <;>
      rw [pattern] at single absent <;> rw [pattern]
    · rw [single 4 (by decide) rfl, absent 3 (by decide) rfl, absent 2 (by decide) rfl,
        single 1 (by decide) rfl]
      rfl
    · rw [absent 4 (by decide) rfl, single 3 (by decide) rfl, single 2 (by decide) rfl,
        absent 1 (by decide) rfl]
      rfl
    · rw [absent 4 (by decide) rfl, single 3 (by decide) rfl, absent 2 (by decide) rfl, ← once]
      rfl
    · rw [absent 4 (by decide) rfl, absent 3 (by decide) rfl, ← twice, single 1 (by decide) rfl]
      rfl
    · rw [absent 4 (by decide) rfl, absent 3 (by decide) rfl, single 2 (by decide) rfl, ← once]
      rfl
  · rw [sizes, usual]
    rcases pattern with pattern | pattern | pattern | pattern | pattern <;> rw [pattern] <;> rfl

/-- The classes of five distinct ranks. Only the lowest straight flush is not what it should
be: the ace that leads it makes it a royal flush. -/
theorem classifyFive_of_singles (five : cards.length = 5)
    (singles : countPattern cards = [1, 1, 1, 1, 1]) :
    (runTop cards = 5 → (classifyFive cards).rank = .royalFlush ∧
        (classifyFive cards).kickers = [14]) ∧
      (runTop cards ≠ 5 → (classifyFive cards).rank = category cards ∧
        (classifyFive cards).kickers = tiebreak cards ∧
        (tiebreak cards).length = (category cards).kickerCount) := by
  have nonempty : cards ≠ [] := by
    rintro rfl
    cases five
  have flush := flush_eq_suited nonempty
  have ranks : (sortByRank cards).map Card.rank = ranksHeld cards 1 :=
    sortedRanks_of_singles five singles
  have counts : sortDescending ((counter (ranksHeld cards 1)).map Prod.snd) =
      [1, 1, 1, 1, 1] := by
    rw [← ranks]
    exact singles
  have size : (ranksHeld cards 1).length = 5 := by
    rw [length_ranksHeld cards (by decide), singles]
    rfl
  obtain ⟨first, second, third, fourth, fifth, held⟩ := exists_of_length_five size
  obtain ⟨straight, tops⟩ := straight_of_singles held
  have lead : (ranksHeld cards 1).headD 0 = first := by
    rw [held]
    rfl
  obtain ⟨usual, decider⟩ := category_of_singles singles
  unfold classifyFive runTop
  simp only [flush, ranks, straight, counts, lead]
  rw [usual]
  cases shape : suited cards <;> cases found : straightTop cards
  case false.none =>
    rw [decider found, size]
    exact ⟨fun zero => absurd zero (by decide), fun _ => ⟨rfl, rfl, rfl⟩⟩
  case true.none =>
    rw [decider found, size]
    exact ⟨fun zero => absurd zero (by decide), fun _ => ⟨rfl, rfl, rfl⟩⟩
  case false.some top =>
    rw [(tops top found).1]
    have single : tiebreak cards = [top] := by rw [tiebreak, found]
    rw [single]
    exact ⟨fun zero => absurd zero (show 0 ≠ 5 by decide), fun _ => ⟨rfl, rfl, rfl⟩⟩
  case true.some top =>
    obtain ⟨high, ace⟩ := tops top found
    have single : tiebreak cards = [top] := by rw [tiebreak, found]
    rw [high, single]
    refine ⟨?_, ?_⟩
    · intro lowest
      have five : top = 5 := lowest
      simp [ace.mpr (Or.inr five)]
    · intro notLowest
      have above : top ≠ 5 := notLowest
      by_cases royal : top = 14
      · simp [ace.mpr (Or.inl royal), royal, HandRank.kickerCount]
      · have below : first ≠ 14 := fun leading => (ace.mp leading).elim royal above
        simp [below, royal, HandRank.kickerCount]

theorem classifyFive_of_wheel (five : cards.length = 5) (distinct : cards.Nodup)
    (wheel : runTop cards = 5) :
    (classifyFive cards).rank = .royalFlush ∧ (classifyFive cards).kickers = [14] := by
  have flush := (straightTop_of_runTop (show runTop cards ≠ 0 by omega)).1
  have single := ranks_nodup_of_suited distinct flush
  have repeated : ∀ {copies : Nat}, 2 ≤ copies → copies ∉ countPattern cards :=
    fun two counted => ranks_repeat two counted single
  rcases countPattern_cases five distinct with pattern | pattern | pattern | pattern | pattern |
    pattern
  · exact absurd (by simp [pattern]) (repeated (show 2 ≤ 4 by decide))
  · exact absurd (by simp [pattern]) (repeated (show 2 ≤ 3 by decide))
  · exact absurd (by simp [pattern]) (repeated (show 2 ≤ 3 by decide))
  · exact absurd (by simp [pattern]) (repeated (show 2 ≤ 2 by decide))
  · exact absurd (by simp [pattern]) (repeated (show 2 ≤ 2 by decide))
  · exact (classifyFive_of_singles five pattern).1 wheel

/-- Apart from the lowest straight flush, five distinct cards are classified by the book. -/
theorem classifyFive_of_usual (five : cards.length = 5) (distinct : cards.Nodup)
    (usual : runTop cards ≠ 5) :
    (classifyFive cards).rank = category cards ∧ (classifyFive cards).kickers = tiebreak cards ∧
      (tiebreak cards).length = (category cards).kickerCount := by
  rcases countPattern_cases five distinct with pattern | pattern | pattern | pattern | pattern |
    pattern
  · exact classifyFive_of_repeat five distinct (Or.inl pattern)
  · exact classifyFive_of_repeat five distinct (Or.inr (Or.inl pattern))
  · exact classifyFive_of_repeat five distinct (Or.inr (Or.inr (Or.inl pattern)))
  · exact classifyFive_of_repeat five distinct (Or.inr (Or.inr (Or.inr (Or.inl pattern))))
  · exact classifyFive_of_repeat five distinct (Or.inr (Or.inr (Or.inr (Or.inr pattern))))
  · exact (classifyFive_of_singles five pattern).2 usual

end Classes

end Holdem
