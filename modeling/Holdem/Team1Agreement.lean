import Holdem.HandOrder
import Holdem.Team1Hands

set_option autoImplicit false

namespace Holdem

def HandRank.name : HandRank → String
  | .royalFlush => "ROYAL_FLUSH"
  | .straightFlush => "STRAIGHT_FLUSH"
  | .fourOfAKind => "FOUR_OF_A_KIND"
  | .fullHouse => "FULL_HOUSE"
  | .flush => "FLUSH"
  | .straight => "STRAIGHT"
  | .threeOfAKind => "THREE_OF_A_KIND"
  | .twoPair => "TWO_PAIR"
  | .onePair => "ONE_PAIR"
  | .highCard => "HIGH_CARD"

/-- A royal flush read as a straight flush. -/
def HandRank.withoutRoyal : HandRank → HandRank
  | .royalFlush => .straightFlush
  | rank => rank

namespace Team1

open StandardPoker

/-- The fields of a result that decide within a category. -/
def Details.fieldsUsed (details : Details) : HandRank → List Int
  | .royalFlush | .straightFlush | .straight => [details.primary]
  | .fourOfAKind | .fullHouse => [details.primary, details.secondary]
  | .threeOfAKind | .onePair => details.primary :: details.kickers
  | .twoPair => details.primary :: details.secondary :: details.kickers
  | .flush | .highCard => details.kickers

/-! ### The order of the scores -/

section Scores

variable {cards : List Card}

theorem tiebreak_length (five : cards.length = 5) (distinct : cards.Nodup) :
    (tiebreak cards).length = (category cards).kickerCount := by
  by_cases wheel : runTop cards = 5
  · have run : runTop cards ≠ 0 := by omega
    obtain ⟨flush, found⟩ := straightTop_of_runTop run
    rw [wheel] at found
    simp [tiebreak, category, flush, found, HandRank.kickerCount]
  · exact (classifyFive_of_usual five distinct wheel).2.2

theorem append_lt_append {left right : List Int} (size : left.length = right.length)
    (below : left < right) (rest : List Int) : left ++ rest < right ++ rest := by
  induction left generalizing right with
  | nil =>
      rw [List.eq_nil_of_length_eq_zero size.symm] at below
      exact absurd below (lt_irrefl _)
  | cons first others ih =>
      cases right with
      | nil => cases size
      | cons head tail =>
          rw [List.cons_append, List.cons_append, List.cons_lt_cons_iff]
          rcases List.cons_lt_cons_iff.mp below with less | ⟨same, later⟩
          · exact Or.inl less
          · exact Or.inr ⟨same, ih (by simpa using size) later⟩

theorem padded_lt {left right : List Int} (size : left.length = right.length)
    (below : left < right) : padded left < padded right := by
  unfold padded
  rw [size]
  exact append_lt_append size below _

theorem encode_lt {rank : HandRank} {left right : List Int}
    (leftSize : left.length = rank.kickerCount) (rightSize : right.length = rank.kickerCount)
    (below : left < right) :
    padded (encode rank left).score < padded (encode rank right).score := by
  have size : (encode rank left).score.length = (encode rank right).score.length := by
    cases rank <;> simp [encode, Details.score, leftSize, rightSize]
  apply padded_lt size
  obtain _ | ⟨first, others⟩ := left
  · cases rank <;> cases leftSize
  obtain _ | ⟨head, tail⟩ := right
  · cases rank <;> cases rightSize
  cases rank
  case flush | highCard => simpa [encode, Details.score] using below
  case threeOfAKind | onePair =>
    simpa [encode, Details.score, List.cons_lt_cons_iff] using below
  case royalFlush | straightFlush | straight =>
    cases List.eq_nil_of_length_eq_zero (Nat.succ.inj leftSize)
    cases List.eq_nil_of_length_eq_zero (Nat.succ.inj rightSize)
    simpa [encode, Details.score, List.cons_lt_cons_iff] using below
  case fourOfAKind | fullHouse =>
    obtain ⟨second, rfl⟩ := List.length_eq_one_iff.mp (Nat.succ.inj leftSize)
    obtain ⟨next, rfl⟩ := List.length_eq_one_iff.mp (Nat.succ.inj rightSize)
    simpa [encode, Details.score, List.cons_lt_cons_iff] using below
  case twoPair =>
    obtain ⟨second, third, rfl⟩ := List.length_eq_two.mp (Nat.succ.inj leftSize)
    obtain ⟨next, last, rfl⟩ := List.length_eq_two.mp (Nat.succ.inj rightSize)
    simpa [encode, Details.score, List.cons_lt_cons_iff] using below

theorem detailsOf_of_run (five : cards.length = 5) (distinct : cards.Nodup)
    (run : runTop cards ≠ 0) : detailsOf cards = ⟨8, (runTop cards : Int) - 2, 0, []⟩ := by
  obtain ⟨flush, found⟩ := straightTop_of_runTop run
  have top : tiebreakIndices cards = [(runTop cards : Int) - 2] := by
    rw [tiebreakIndices, tiebreak, found]
    rfl
  rw [detailsOf_eq five distinct, top]
  by_cases royal : runTop cards = 14
  · simp [category, flush, found, royal, encode, nameOf, HandName.rank]
  · simp [category, flush, found, royal, encode, nameOf, HandName.rank]

theorem encode_handRank (rank : HandRank) (values : List Int) :
    (encode rank values).handRank = (nameOf rank).rank := by
  cases rank <;> rfl

theorem nameOf_rank {rank : HandRank} (plain : rank.value ≤ 8) :
    (nameOf rank).rank = (rank.value : Int) - 1 := by
  cases rank <;> first | rfl | exact absurd plain (by decide)

theorem score_lt_of_handRank {left right : Details} (below : left.handRank < right.handRank) :
    padded left.score < padded right.score := by
  exact List.cons_lt_cons_iff.mpr (Or.inl below)

/-- The scores of two hands are ordered as the hands. -/
theorem score_lt_of_strength {left right : List Card} (leftFive : left.length = 5)
    (leftDistinct : left.Nodup) (rightFive : right.length = 5) (rightDistinct : right.Nodup)
    (below : strength left < strength right) :
    padded (detailsOf left).score < padded (detailsOf right).score := by
  by_cases rightRun : runTop right = 0
  · have leftRun : runTop left = 0 := by
      rcases runTop_bounds left with none | ⟨low, high⟩
      · exact none
      · have reached : toLex (9, [runTop left]) ≤ strength left :=
          (run_le_strength_iff (by omega) high).mpr (le_refl _)
        have above := (run_le_strength_iff (by omega) high).mp
          (le_of_lt (lt_of_le_of_lt reached below))
        omega
    have leftPlain := category_of_no_run leftRun
    have rightPlain := category_of_no_run rightRun
    rw [strength, strength, Prod.Lex.toLex_lt_toLex] at below
    rw [detailsOf_eq leftFive leftDistinct, detailsOf_eq rightFive rightDistinct]
    rcases below with less | ⟨same, less⟩
    · apply score_lt_of_handRank
      rw [encode_handRank, encode_handRank, nameOf_rank leftPlain, nameOf_rank rightPlain]
      dsimp only at less
      omega
    · have category := HandRank.value_injective same
      have leftSize := tiebreak_length leftFive leftDistinct
      have rightSize := tiebreak_length rightFive rightDistinct
      rw [category] at leftSize ⊢
      apply encode_lt (by rw [tiebreakIndices, List.length_map, leftSize])
        (by rw [tiebreakIndices, List.length_map, rightSize])
      apply List.map_lt _ less
      omega
  · rw [detailsOf_of_run rightFive rightDistinct rightRun]
    by_cases leftRun : runTop left = 0
    · have leftPlain := category_of_no_run leftRun
      apply score_lt_of_handRank
      rw [detailsOf_eq leftFive leftDistinct, encode_handRank, nameOf_rank leftPlain]
      show _ < (8 : Int)
      omega
    · rw [detailsOf_of_run leftFive leftDistinct leftRun]
      have leftTop := runTop_bounds left
      have rightTop := runTop_bounds right
      rw [strength_of_run leftRun, strength_of_run rightRun, Prod.Lex.toLex_lt_toLex] at below
      have less : runTop left < runTop right := by
        split_ifs at below <;> simp [List.cons_lt_cons_iff] at below <;> omega
      have primary : (runTop left : Int) - 2 < runTop right - 2 := by omega
      apply padded_lt (by rfl)
      exact List.cons_lt_cons_iff.mpr (Or.inr ⟨rfl, List.cons_lt_cons_iff.mpr (Or.inl primary)⟩)

end Scores

/-! ### The best of the combinations -/

def bestWith (five : List Card) : Best :=
  ⟨(detailsOf five).handRank, detailsOf five, some (five.map ofCard)⟩

theorem bestCombination_eq (combos : List (List Card)) (valid : ∀ five ∈ combos, five.length = 5)
    (best : Best) :
    bestCombination best (combos.map (List.map ofCard)) = .ok (Combinations.keepBest
      (fun new old => decide (padded old.details.score < padded new.details.score)) best
      (combos.map bestWith)) := by
  induction combos generalizing best with
  | nil => rfl
  | cons first rest ih =>
      have later : ∀ five ∈ rest, five.length = 5 := fun five member =>
        valid five (List.mem_cons_of_mem _ member)
      rw [List.map_cons, bestCombination, getHandRankAndKickers_ofCard (valid first (by simp))]
      dsimp only
      rw [Combinations.keepBest, List.map_cons, List.foldl_cons, ← Combinations.keepBest]
      simp only [decide_eq_true_eq]
      by_cases replaced : padded best.details.score < padded (detailsOf first).score
      · rw [if_pos replaced, if_pos (show _ < padded (bestWith first).details.score from replaced)]
        exact ih later _
      · rw [if_neg replaced,
          if_neg (show ¬ _ < padded (bestWith first).details.score from replaced)]
        exact ih later _

/-- The loop ends with a result of a combination that has the highest score. -/
theorem bestCombination_ofCard (combos : List (List Card))
    (valid : ∀ five ∈ combos, five.length = 5) (best : Best) :
    ∃ last, bestCombination best (combos.map (List.map ofCard)) = .ok last ∧
      (last = best ∨ ∃ five ∈ combos, last = bestWith five) ∧
      ∀ five ∈ combos, padded (detailsOf five).score ≤ padded last.details.score := by
  have up : ∀ new old : Best, True → True →
      decide (padded old.details.score < padded new.details.score) = true →
      padded old.details.score ≤ padded new.details.score :=
    fun new old _ _ replaced => le_of_lt (of_decide_eq_true replaced)
  have down : ∀ new old : Best, True → True →
      decide (padded old.details.score < padded new.details.score) = false →
      padded new.details.score ≤ padded old.details.score :=
    fun new old _ _ kept => not_lt.mp (of_decide_eq_false kept)
  obtain ⟨origin, _, most⟩ := Combinations.keepBest_spec
    (fun best : Best => padded best.details.score) up down best (combos.map bestWith) trivial
    (fun _ _ => trivial)
  refine ⟨_, bestCombination_eq combos valid best, ?_, ?_⟩
  · rcases origin with same | inside
    · exact Or.inl same
    · obtain ⟨five, member, same⟩ := List.mem_map.mp inside
      exact Or.inr ⟨five, member, same.symm⟩
  · intro five member
    exact most _ (List.mem_map_of_mem member)

theorem find_nameOf (name : HandName) :
    HandName.all.find? (fun other => other.rank == name.rank) = some name := by
  cases name <;> rfl

theorem nameOf_text (rank : HandRank) : (nameOf rank).text = rank.withoutRoyal.name := by
  cases rank <;> rfl

theorem fieldsUsed_encode {rank : HandRank} {values : List Int}
    (size : values.length = rank.kickerCount) : (encode rank values).fieldsUsed rank = values := by
  cases rank
  case flush | highCard => rfl
  case threeOfAKind | onePair =>
    obtain ⟨first, rest, rfl⟩ := List.exists_cons_of_length_pos (by rw [size]; decide)
    rfl
  case royalFlush | straightFlush | straight =>
    obtain ⟨first, rfl⟩ := List.length_eq_one_iff.mp size
    rfl
  case fourOfAKind | fullHouse =>
    obtain ⟨first, second, rfl⟩ := List.length_eq_two.mp size
    rfl
  case twoPair =>
    obtain ⟨first, second, third, rfl⟩ := List.length_eq_three.mp size
    rfl

theorem calculateStrengthScore_ok {name : HandName} {details : Details}
    (kicker : name = .twoPair → details.kickers ≠ []) (hole community : List ParsedCard) :
    ∃ score, calculateStrengthScore name details hole community = .ok score := by
  have based : ∃ score, baseScore name details hole community = .ok score := by
    cases name
    case twoPair =>
      obtain ⟨first, rest, found⟩ := List.exists_cons_of_ne_nil (kicker rfl)
      simp only [baseScore, found]
      exact ⟨_, rfl⟩
    case onePair =>
      simp only [baseScore]
      split
      · exact ⟨_, rfl⟩
      · split
        · split
          · exact ⟨_, rfl⟩
          · exact ⟨_, rfl⟩
        · exact ⟨_, rfl⟩
    all_goals exact ⟨_, rfl⟩
  obtain ⟨score, based⟩ := based
  unfold calculateStrengthScore
  rw [based]
  split
  · exact ⟨_, rfl⟩
  · exact ⟨_, rfl⟩

/-- On five to seven distinct cards team1 returns the usual result of their best five. -/
theorem evaluateParsed_best {hole community : List Card} (enough : 5 ≤ (hole ++ community).length)
    (distinct : (hole ++ community).Nodup) :
    ∃ five ∈ (hole ++ community).sublistsLen 5, ∃ score,
      best (hole ++ community) = ↑(strength five) ∧
      evaluateParsed (hole.map ofCard) (community.map ofCard) =
        .ok (.hand (nameOf (category five)).text (nameOf (category five)).rank
          ((five.map ofCard).map fun card => card.rank ++ card.suit) score
          (encode (category five) (tiebreakIndices five))) := by
  have member : ∀ five, five ∈ Combinations.choose 5 (hole ++ community) ↔
      five ∈ (hole ++ community).sublistsLen 5 := by
    intro five
    rw [Combinations.mem_choose, List.mem_sublistsLen]
  have valid : ∀ five ∈ (hole ++ community).sublistsLen 5, five.length = 5 ∧ five.Nodup := by
    intro five inside
    obtain ⟨kept, size⟩ := List.mem_sublistsLen.mp inside
    exact ⟨size, distinct.sublist kept⟩
  obtain ⟨last, looped, origin, most⟩ := bestCombination_ofCard
    (Combinations.choose 5 (hole ++ community))
    (fun five inside => (valid five ((member five).mp inside)).1) {}
  obtain ⟨top, topIn, worth, greatest⟩ := best_eq_strength enough
  have found : ∃ five ∈ Combinations.choose 5 (hole ++ community),
      last = bestWith five := by
    rcases origin with rfl | found
    · obtain ⟨size, apart⟩ := valid top topIn
      have above := most top ((member top).mpr topIn)
      have below : padded ({} : Best).details.score < padded (detailsOf top).score := by
        apply score_lt_of_handRank
        rw [detailsOf_eq size apart, encode_handRank]
        cases category top <;> decide
      exact absurd below (not_lt.mpr above)
    · exact found
  obtain ⟨five, inside, rfl⟩ := found
  rw [member] at inside
  obtain ⟨size, apart⟩ := valid five inside
  obtain ⟨topSize, topApart⟩ := valid top topIn
  have equal : strength top = strength five := by
    apply le_antisymm _ (greatest five inside)
    by_contra less
    have above := most top ((member top).mpr topIn)
    have below := score_lt_of_strength size apart topSize topApart (not_le.mp less)
    exact absurd below (not_lt.mpr above)
  have kicker : nameOf (category five) = .twoPair →
      (encode (category five) (tiebreakIndices five)).kickers ≠ [] := by
    intro two
    have length := tiebreak_length size apart
    have pairs : category five = .twoPair := by
      cases named : category five <;> rw [named] at two <;> first | rfl | cases two
    rw [pairs] at length ⊢
    obtain ⟨first, second, third, listed⟩ := List.length_eq_three.mp length
    simp [tiebreakIndices, listed, encode]
  obtain ⟨score, scored⟩ := calculateStrengthScore_ok kicker (hole.map ofCard)
    (community.map ofCard)
  refine ⟨five, inside, score, by rw [worth, equal], ?_⟩
  unfold evaluateParsed
  rw [← List.map_append, Combinations.choose_map, looped]
  simp only [bestWith, detailsOf_eq size apart, encode_handRank, find_nameOf, scored]

theorem evaluateHand_str (lib : CaseMap) {hole community : List Card} (two : hole.length = 2)
    (three : 3 ≤ community.length) (few : community.length ≤ 5) :
    evaluateHand lib (hole.map Card.str) (community.map Card.str) =
      evaluateParsed (hole.map ofCard) (community.map ofCard) := by
  unfold evaluateHand
  rw [if_neg (by simp [two]), if_neg (by simp [three, few]), parseCards_str, parseCards_str]

/-- The two evaluators agree on the texts of two hole cards and three to five community cards,
all distinct: the category is the same, a royal flush being a straight flush for team1, and
below the straight flush so is the tie-break, whose ranks team1 counts from the two. -/
theorem evaluators_agree (lib : CaseMap) (hole community : List Card) (two : hole.length = 2)
    (three : 3 ≤ community.length) (few : community.length ≤ 5)
    (distinct : (hole ++ community).Nodup) :
    ∃ hand handRank best5Cards score details, Holdem.evaluateHand hole community = .ok hand ∧
      evaluateHand lib (hole.map Card.str) (community.map Card.str) =
        .ok (.hand hand.rank.withoutRoyal.name handRank best5Cards score details) ∧
      (hand.rank.value < HandRank.straightFlush.value →
        details.fieldsUsed hand.rank = hand.kickers.map fun rank : Nat => (rank : Int) - 2) := by
  have enough : 5 ≤ (hole ++ community).length := by
    rw [List.length_append]
    omega
  have seven : (hole ++ community).length ≤ 7 := by
    rw [List.length_append]
    omega
  obtain ⟨hand, returned, steel, usual⟩ := evaluateHand_worth enough distinct
  obtain ⟨five, inside, score, worth, evaluated⟩ := evaluateParsed_best enough distinct
  rw [evaluateHand_str lib two three few, evaluated, nameOf_text]
  obtain ⟨kept, size⟩ := List.mem_sublistsLen.mp inside
  cases wheel : holdsSteelWheel (hole ++ community)
  · have equal := usual wheel
    rw [worth, WithBot.coe_inj] at equal
    have rank : category five = hand.rank :=
      HandRank.value_injective (congrArg (fun pair => (ofLex pair).1) equal)
    have kickers : tiebreak five = hand.kickers := congrArg (fun pair => (ofLex pair).2) equal
    have length := tiebreak_length size (distinct.sublist kept)
    refine ⟨hand, _, _, _, _, returned, by rw [rank], ?_⟩
    intro _
    rw [← rank, fieldsUsed_encode (by rw [tiebreakIndices, List.length_map, length]), ← kickers]
    rfl
  · have royal : hand.rank = .royalFlush :=
      HandRank.value_injective (congrArg (fun pair => (ofLex pair).1) (steel wheel))
    have best := (best_of_wheel enough seven wheel).2
    rw [worth, WithBot.coe_inj] at best
    have straight : category five = .straightFlush :=
      HandRank.value_injective (congrArg (fun pair => (ofLex pair).1) best)
    refine ⟨hand, _, _, _, _, returned, by rw [royal, straight]; rfl, ?_⟩
    rw [royal]
    intro below
    exact absurd below (by decide)

theorem not_mem_of_ascii {char : Char} {text : List Char} (beyond : 128 ≤ char.val)
    (ascii : (text.all fun other => decide (other.val < 128)) = true) : char ∉ text := by
  intro inside
  have below := of_decide_eq_true (List.all_eq_true.mp ascii char inside)
  exact absurd below (UInt32.not_lt.mpr beyond)

/-- A case map that changes nothing outside ASCII. -/
def asciiCase : CaseMap where
  upper char := if char.val < 128 then [char.toUpper] else [char]
  lower char := if char.val < 128 then [char.toLower] else [char]
  upper_ascii char ascii := if_pos ascii
  lower_ascii char ascii := if_pos ascii
  upper_other char beyond := by
    rw [if_neg (UInt32.not_lt.mpr beyond)]
    exact ⟨char, by simp, not_mem_of_ascii beyond (by decide)⟩
  lower_other char beyond := by
    rw [if_neg (UInt32.not_lt.mpr beyond)]
    exact ⟨char, by simp, not_mem_of_ascii beyond (by decide)⟩

theorem evaluators_agree_tens :
    ∃ handRank best5Cards score details,
      evaluateHand asciiCase ["10♥", "10♣"] ["2♣", "7♦", "9♠", "J♥", "4♦"] =
        .ok (.hand "ONE_PAIR" handRank best5Cards score details) ∧
      details.fieldsUsed .onePair = [8, 9, 7, 5] := by
  have core : (Holdem.evaluateHand (pairOf 10 (by decide) (by decide)) dryBoard).map
      (fun hand => (hand.rank, hand.kickers)) = .ok (.onePair, [10, 11, 9, 7]) := by decide
  obtain ⟨hand, handRank, best5Cards, score, details, returned, replied, fields⟩ :=
    evaluators_agree asciiCase (pairOf 10 (by decide) (by decide)) dryBoard rfl (by decide)
      (by decide) (by decide)
  rw [returned] at core
  obtain ⟨rank, kickers⟩ := Prod.mk.inj (Except.ok.inj core)
  rw [rank] at replied fields
  rw [kickers] at fields
  have texts : (pairOf 10 (by decide) (by decide)).map Card.str = ["10♥", "10♣"] ∧
      dryBoard.map Card.str = ["2♣", "7♦", "9♠", "J♥", "4♦"] := by decide
  rw [texts.1, texts.2] at replied
  exact ⟨handRank, best5Cards, score, details, replied, fields (by decide)⟩

end Team1

end Holdem
