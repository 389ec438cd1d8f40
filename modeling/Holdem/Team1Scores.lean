import Holdem.Team1Parsing
import Mathlib.Tactic.FieldSimp
import Mathlib.Tactic.Linarith
import Mathlib.Tactic.NormNum

set_option autoImplicit false

/- The strength scores of the team1 evaluator from three of a kind up, as exact fractions
before the final rounding. -/
namespace Holdem.Team1

open StandardPoker

/-- `_calculate_strength_score` before `round`. -/
def unroundedScore (handName : HandName) (details : Details) (hole community : List ParsedCard) :
    Except EvalError ℚ :=
  if handName = .straightFlush ∧ details.primary = ranks.idxOf 'A' then .ok 100
  else (baseScore handName details hole community).map fun score => min score 100

theorem roundHundredths_hundred : roundHundredths 100 = 100 := by
  unfold roundHundredths
  norm_num

theorem calculateStrengthScore_eq (handName : HandName) (details : Details)
    (hole community : List ParsedCard) :
    calculateStrengthScore handName details hole community =
      (unroundedScore handName details hole community).map roundHundredths := by
  unfold calculateStrengthScore unroundedScore
  split
  · exact congrArg Except.ok roundHundredths_hundred.symm
  · cases baseScore handName details hole community <;> rfl

/-- `evaluate_hand` accepts the texts of these distinct cards, names their hand so, and gives it
this score, rounded. -/
def Graded (lib : CaseMap) (holeCards communityCards : List String) (cards : List Card)
    (name : HandName) (score : ℚ) : Prop :=
  ∃ hole community best5Cards details,
    parseCards lib holeCards = .ok (hole.map ofCard) ∧
      parseCards lib communityCards = .ok (community.map ofCard) ∧
      cards = hole ++ community ∧ cards.Nodup ∧
      evaluateHand lib holeCards communityCards =
        .ok (.hand name.text name.rank best5Cards (roundHundredths score) details) ∧
      unroundedScore name details (hole.map ofCard) (community.map ofCard) = .ok score

/-- The least and the greatest score that the comments give a category. -/
def HandName.band : HandName → ℚ × ℚ
  | .straightFlush => (98, 9999 / 100)
  | .fourOfAKind => (96, 9799 / 100)
  | .fullHouse => (94, 9599 / 100)
  | .flush => (92, 9399 / 100)
  | .straight => (90, 9199 / 100)
  | .threeOfAKind => (90, 100)
  | .twoPair => (80, 89)
  | .onePair => (30, 85)
  | .highCard => (0, 25)

/-- The score lies in the band of its category; a royal flush has 100. -/
def InBand (cards : List Card) (name : HandName) (score : ℚ) : Prop :=
  if best cards = ↑(toLex (HandRank.royalFlush.value, [14])) then score = 100
  else name.band.1 ≤ score ∧ score ≤ name.band.2

/-- Five ranks, counted from the two, with the weights 1 to 1/5, over a sixtieth. -/
def flushWeight (ranks : List Nat) : Nat :=
  (ranks.zipIdx.map fun (rank, i) => 60 / (i + 1) * (rank - 2)).sum

/-- The best hand is a flush whose weighted ranks are beyond thirteen. -/
def heavyFlush (cards : List Card) : Prop :=
  ∃ ranks, best cards = ↑(toLex (HandRank.flush.value, ranks)) ∧ 60 * 13 < flushWeight ranks

/-! ### The score of a category -/

section FiveCards

variable {five : List Card}

theorem tiebreak_bounds {rank : Nat} (member : rank ∈ tiebreak five) : 2 ≤ rank ∧ rank ≤ 14 := by
  unfold tiebreak at member
  cases straight : straightTop five with
  | some top =>
      rw [straight, List.mem_singleton] at member
      have bounds := straightTop_bounds straight
      omega
  | none =>
      rw [straight] at member
      simp only [List.mem_append] at member
      rcases member with ((held | held) | held) | held <;>
        exact mem_ranksDown.mp (List.mem_of_mem_filter held)

theorem lead_bounds (size : five.length = 5) (distinct : five.Nodup) :
    0 ≤ (tiebreakIndices five).headD 0 ∧ (tiebreakIndices five).headD 0 ≤ 12 := by
  have length := tiebreak_length size distinct
  have some : 0 < (category five).kickerCount := by
    cases category five <;> decide
  obtain ⟨first, rest, listed⟩ := List.exists_cons_of_length_pos (length ▸ some)
  have bounds := tiebreak_bounds (show first ∈ tiebreak five by simp [listed])
  rw [tiebreakIndices, listed]
  simp only [List.map_cons, List.headD_cons]
  omega

theorem straightTop_of_category (cards : List Card) :
    (category cards = .royalFlush → straightTop cards = some 14) ∧
      (category cards = .straightFlush →
        (straightTop cards).isSome = true ∧ straightTop cards ≠ some 14) ∧
      (category cards = .straight → (straightTop cards).isSome = true) := by
  unfold category
  by_cases royal : suited cards ∧ straightTop cards = some 14
  · rw [if_pos royal]
    exact ⟨fun _ => royal.2, nofun, nofun⟩
  · rw [if_neg royal]
    by_cases steel : suited cards ∧ (straightTop cards).isSome
    · rw [if_pos steel]
      exact ⟨nofun, fun _ => ⟨steel.2, fun ace => royal ⟨steel.1, ace⟩⟩, nofun⟩
    · rw [if_neg steel]
      split_ifs with quads full flush run
      · exact ⟨nofun, nofun, nofun⟩
      · exact ⟨nofun, nofun, nofun⟩
      · exact ⟨nofun, nofun, nofun⟩
      · exact ⟨nofun, nofun, fun _ => run⟩
      · exact ⟨nofun, nofun, nofun⟩
      · exact ⟨nofun, nofun, nofun⟩
      · exact ⟨nofun, nofun, nofun⟩
      · exact ⟨nofun, nofun, nofun⟩

theorem top_of_straight (straight : category five = .straight ∨ category five = .straightFlush ∨
    category five = .royalFlush) :
    ∃ top, straightTop five = some top ∧ tiebreakIndices five = [(top : Int) - 2] ∧ 5 ≤ top ∧
      top ≤ 14 ∧ (category five = .straightFlush → top ≠ 14) ∧
      (category five = .royalFlush → top = 14) := by
  obtain ⟨royal, steel, plain⟩ := straightTop_of_category five
  have present : (straightTop five).isSome = true := by
    rcases straight with straight | straightFlush | royalFlush
    · exact plain straight
    · exact (steel straightFlush).1
    · rw [royal royalFlush]
      rfl
  obtain ⟨top, found⟩ := Option.isSome_iff_exists.mp present
  have bounds := straightTop_bounds found
  refine ⟨top, found, ?_, bounds.1, bounds.2, ?_, ?_⟩
  · rw [tiebreakIndices, tiebreak, found]
    rfl
  · intro straightFlush ace
    apply (steel straightFlush).2
    rw [found, ace]
  · intro royalFlush
    have ace := royal royalFlush
    rw [found] at ace
    exact Option.some.inj ace

theorem share_bounds {lead : Int} (low : 0 ≤ lead) (high : lead ≤ 12) (base : ℚ)
    (below : base ≤ 98) :
    base ≤ min (base + (lead : ℚ) / 12 * (199 / 100)) 100 ∧
      min (base + (lead : ℚ) / 12 * (199 / 100)) 100 ≤ base + 199 / 100 ∧
      (0 < lead → base < min (base + (lead : ℚ) / 12 * (199 / 100)) 100) := by
  have least : (0 : ℚ) ≤ lead := by exact_mod_cast low
  have most : (lead : ℚ) ≤ 12 := by exact_mod_cast high
  refine ⟨le_min (by linarith) (by linarith), min_le_of_left_le (by linarith), ?_⟩
  intro positive
  have above : (0 : ℚ) < lead := by exact_mod_cast positive
  exact lt_min (by linarith) (by linarith)

theorem flush_sum {ranks : List Nat} (size : ranks.length = 5) (low : ∀ rank ∈ ranks, 2 ≤ rank) :
    ((ranks.map fun rank : Nat => (rank : Int) - 2).zipIdx.map fun (kicker, i) =>
      (kicker : ℚ) / (13 * (i + 1))).sum = (flushWeight ranks : ℚ) / 780 := by
  obtain ⟨first, second, third, fourth, fifth, rfl⟩ := exists_of_length_five size
  simp only [List.mem_cons, List.not_mem_nil, or_false, forall_eq_or_imp, forall_eq] at low
  obtain ⟨one, two, three, four, five⟩ := low
  simp only [flushWeight, List.map_cons, List.map_nil, List.zipIdx_cons, List.zipIdx_nil,
    List.sum_cons, List.sum_nil]
  push_cast [Nat.cast_sub one, Nat.cast_sub two, Nat.cast_sub three, Nat.cast_sub four,
    Nat.cast_sub five]
  norm_num
  ring

/-- The score of a flush is in its band exactly when the weighted ranks stay within thirteen. -/
theorem flush_bounds (weight : Nat) :
    92 ≤ min (92 + (weight : ℚ) / 780 * (199 / 100)) 100 ∧
      (min (92 + (weight : ℚ) / 780 * (199 / 100)) 100 ≤ 9399 / 100 ↔ ¬ 60 * 13 < weight) := by
  have least : (0 : ℚ) ≤ weight := by exact_mod_cast weight.zero_le
  refine ⟨le_min (by linarith) (by norm_num), ?_⟩
  rw [min_le_iff, not_lt]
  constructor
  · rintro (within | hundred)
    · have few : (weight : ℚ) ≤ 780 := by linarith
      exact_mod_cast few
    · norm_num at hundred
  · intro within
    have few : (weight : ℚ) ≤ 780 := by exact_mod_cast within
    exact Or.inl (by linarith)

/-- From three of a kind up, where the score of five cards lies. -/
theorem unroundedScore_encode (size : five.length = 5) (distinct : five.Nodup)
    (trips : 4 ≤ (category five).value) (hole community : List ParsedCard) :
    ∃ score, unroundedScore (nameOf (category five))
        (encode (category five) (tiebreakIndices five)) hole community = .ok score ∧
      (category five = .royalFlush → score = 100) ∧
      (category five ≠ .royalFlush → (nameOf (category five)).band.1 ≤ score ∧
        (score ≤ (nameOf (category five)).band.2 ↔
          ¬ (category five = .flush ∧ 60 * 13 < flushWeight (tiebreak five)))) ∧
      (category five = .threeOfAKind → score = 90) ∧
      (category five ≠ .threeOfAKind → 90 < score) := by
  obtain ⟨low, high⟩ := lead_bounds size distinct
  have straights := @top_of_straight five
  have length := tiebreak_length size distinct
  cases named : category five <;> rw [named] at trips straights length
  case twoPair | onePair | highCard => exact absurd trips (by decide)
  case royalFlush =>
    obtain ⟨top, _, decided, _, _, _, royal⟩ := straights (Or.inr (Or.inr rfl))
    rw [decided, royal rfl]
    exact ⟨100, rfl, fun _ => rfl, fun other => absurd rfl other, Not.elim (by decide),
      fun _ => by norm_num⟩
  case straightFlush =>
    obtain ⟨top, _, decided, _, most, notAce, _⟩ := straights (Or.inr (Or.inl rfl))
    have apart := notAce rfl
    rw [decided] at low high ⊢
    obtain ⟨least, greatest, _⟩ := share_bounds low high 98 (by norm_num)
    have below : ¬ ((nameOf .straightFlush) = .straightFlush ∧
        (encode .straightFlush [(top : Int) - 2]).primary = ranks.idxOf 'A') := by
      rintro ⟨_, ace⟩
      have twelve : (top : Int) - 2 = 12 := ace
      omega
    unfold unroundedScore
    rw [if_neg below]
    refine ⟨_, rfl, Not.elim (by decide), fun _ => ⟨least, ?_⟩, Not.elim (by decide),
      fun _ => lt_of_lt_of_le (by norm_num) least⟩
    exact iff_of_true (greatest.trans (by norm_num [nameOf, HandName.band])) (by simp)
  case fourOfAKind =>
    obtain ⟨least, greatest, _⟩ := share_bounds low high 96 (by norm_num)
    refine ⟨_, rfl, Not.elim (by decide), fun _ => ⟨least, ?_⟩, Not.elim (by decide),
      fun _ => lt_of_lt_of_le (by norm_num) least⟩
    exact iff_of_true (greatest.trans (by norm_num [nameOf, HandName.band])) (by simp)
  case fullHouse =>
    obtain ⟨least, greatest, _⟩ := share_bounds low high 94 (by norm_num)
    refine ⟨_, rfl, Not.elim (by decide), fun _ => ⟨least, ?_⟩, Not.elim (by decide),
      fun _ => lt_of_lt_of_le (by norm_num) least⟩
    exact iff_of_true (greatest.trans (by norm_num [nameOf, HandName.band])) (by simp)
  case flush =>
    have summed := flush_sum length fun rank member => (tiebreak_bounds member).1
    obtain ⟨least, greatest⟩ := flush_bounds (flushWeight (tiebreak five))
    rw [← summed] at least greatest
    refine ⟨_, rfl, Not.elim (by decide), fun _ => ⟨least, ?_⟩, Not.elim (by decide),
      fun _ => lt_of_lt_of_le (by norm_num) least⟩
    exact Iff.trans greatest (not_congr (by simp))
  case straight =>
    obtain ⟨top, _, decided, five, _⟩ := straights (Or.inl rfl)
    rw [decided] at low high ⊢
    obtain ⟨least, greatest, above⟩ := share_bounds low high 90 (by norm_num)
    refine ⟨_, rfl, Not.elim (by decide), fun _ => ⟨least, ?_⟩, Not.elim (by decide),
      fun _ => above ?_⟩
    · exact iff_of_true (greatest.trans (by norm_num [nameOf, HandName.band])) (by simp)
    · simp only [List.headD_cons]
      omega
  case threeOfAKind =>
    refine ⟨90, ?_, Not.elim (by decide), fun _ => ⟨le_refl _, ?_⟩, fun _ => rfl,
      fun other => absurd rfl other⟩
    · unfold unroundedScore
      rw [if_neg fun royal => absurd royal.1 (by decide)]
      exact congrArg Except.ok (min_eq_left (by norm_num))
    · exact iff_of_true (by norm_num [nameOf, HandName.band]) (by simp)

end FiveCards

/-! ### The inputs that are accepted -/

theorem HandName.text_injective {left right : HandName} (same : left.text = right.text) :
    left = right := by
  cases left <;> cases right <;> first | rfl | exact absurd same (by decide)

section Accepted

variable {lib : CaseMap} {holeCards communityCards : List String}

theorem accepted_sizes {handName : String} {handRank : Int} {best5Cards : List (List Char)}
    {strengthScore : ℚ} {details : Details} (accepted : evaluateHand lib holeCards communityCards =
      .ok (.hand handName handRank best5Cards strengthScore details)) :
    holeCards.length = 2 ∧ 3 ≤ communityCards.length ∧ communityCards.length ≤ 5 := by
  unfold evaluateHand at accepted
  by_cases two : holeCards.length = 2
  · by_cases several : 3 ≤ communityCards.length ∧ communityCards.length ≤ 5
    · exact ⟨two, several⟩
    · rw [if_neg (by omega), if_pos several] at accepted
      cases accepted
  · rw [if_pos two] at accepted
    cases accepted

theorem evaluateHand_of_parsed {hole community : List Card} (two : holeCards.length = 2)
    (three : 3 ≤ communityCards.length) (few : communityCards.length ≤ 5)
    (readHole : parseCards lib holeCards = .ok (hole.map ofCard))
    (readCommunity : parseCards lib communityCards = .ok (community.map ofCard)) :
    evaluateHand lib holeCards communityCards =
      evaluateParsed (hole.map ofCard) (community.map ofCard) := by
  unfold evaluateHand
  rw [if_neg (by omega), if_neg (by omega), readHole, readCommunity]

theorem cards_of_accepted {handName : String} {handRank : Int} {best5Cards : List (List Char)}
    {strengthScore : ℚ} {details : Details} (accepted : evaluateHand lib holeCards communityCards =
      .ok (.hand handName handRank best5Cards strengthScore details)) :
    ∃ hole community : List Card, parseCards lib holeCards = .ok (hole.map ofCard) ∧
      parseCards lib communityCards = .ok (community.map ofCard) := by
  obtain ⟨two, three, few⟩ := accepted_sizes accepted
  have total : (holeCards ++ communityCards).length = 2 + communityCards.length := by
    rw [List.length_append, two]
  rw [evaluateHand_eq lib two three few] at accepted
  rcases parseCards_cases lib (holeCards ++ communityCards) with
    ⟨_, _, cards, read, _⟩ | ⟨_, _, parsed, read, size, card, inside, unmapped⟩ |
    ⟨_, _, message, raised⟩ | ⟨_, _, message, raised⟩
  · rw [parseCards_append] at read
    cases holeRead : parseCards lib holeCards with
    | error raised =>
        rw [holeRead] at read
        cases read
    | ok hole =>
        have holeSize := (parseCards_length holeRead).trans two
        cases communityRead : parseCards lib communityCards with
        | error raised =>
            rw [holeRead, communityRead] at read
            cases read
        | ok community =>
            rw [holeRead, communityRead, Except.ok.injEq] at read
            refine ⟨cards.take 2, cards.drop 2, ?_, ?_⟩
            · rw [List.map_take, ← read, List.take_left' holeSize]
            · rw [List.map_drop, ← read, List.drop_left' holeSize]
  · have enough : 5 ≤ (parsed.take 2 ++ parsed.drop 2).length := by
      rw [List.take_append_drop, size]
      omega
    obtain ⟨key, evaluated⟩ := evaluateParsed_raises enough
      ⟨card, by rwa [List.take_append_drop], unmapped⟩
    rw [read] at accepted
    dsimp only at accepted
    rw [evaluated] at accepted
    cases accepted
  · rw [raised] at accepted
    cases accepted
  · rw [raised] at accepted
    cases accepted

/-- The score in a reply is an exact score, rounded. -/
theorem evaluateParsed_score {hole community : List ParsedCard} {handName : String}
    {handRank : Int} {best5Cards : List (List Char)} {strengthScore : ℚ} {details : Details}
    (evaluated : evaluateParsed hole community =
      .ok (.hand handName handRank best5Cards strengthScore details)) :
    ∃ name score, handName = HandName.text name ∧ handRank = name.rank ∧
      strengthScore = roundHundredths score ∧
      unroundedScore name details hole community = .ok score := by
  unfold evaluateParsed at evaluated
  split at evaluated
  · cases evaluated
  · split at evaluated
    · cases evaluated
    · split at evaluated
      · cases evaluated
      · rename_i name found
        have rank := List.find?_some found
        rw [beq_iff_eq] at rank
        rw [calculateStrengthScore_eq] at evaluated
        split at evaluated
        · cases evaluated
        · rename_i rounded scored
          rw [Except.ok.injEq, Reply.hand.injEq] at evaluated
          obtain ⟨rfl, rfl, _, rfl, rfl⟩ := evaluated
          cases exact : unroundedScore name _ hole community with
          | error raised =>
              rw [exact] at scored
              cases scored
          | ok score =>
              rw [exact] at scored
              cases scored
              exact ⟨name, score, rfl, rank.symm, rfl, exact⟩

/-- Every accepted input whose cards are distinct is graded, with the reply's name and score. -/
theorem graded_of_accepted {handName : String} {handRank : Int} {best5Cards : List (List Char)}
    {strengthScore : ℚ} {details : Details} (accepted : evaluateHand lib holeCards communityCards =
      .ok (.hand handName handRank best5Cards strengthScore details)) :
    ∃ hole community : List Card, parseCards lib holeCards = .ok (hole.map ofCard) ∧
      parseCards lib communityCards = .ok (community.map ofCard) ∧
      ((hole ++ community).Nodup → ∃ name score,
        Graded lib holeCards communityCards (hole ++ community) name score ∧
          handName = name.text ∧ strengthScore = roundHundredths score) := by
  obtain ⟨two, three, few⟩ := accepted_sizes accepted
  obtain ⟨hole, community, readHole, readCommunity⟩ := cards_of_accepted accepted
  refine ⟨hole, community, readHole, readCommunity, fun distinct => ?_⟩
  have evaluated := accepted
  rw [evaluateHand_of_parsed two three few readHole readCommunity] at evaluated
  obtain ⟨name, score, rfl, rfl, rfl, exact⟩ := evaluateParsed_score evaluated
  exact ⟨name, score, ⟨hole, community, best5Cards, details, readHole, readCommunity, rfl, distinct,
    accepted, exact⟩, rfl, rfl⟩

variable {cards : List Card} {name : HandName} {score : ℚ}

/-- A graded input has a best five, which decides its category and its score. -/
theorem Graded.best_five (graded : Graded lib holeCards communityCards cards name score) :
    ∃ five hole community, five.length = 5 ∧ five.Nodup ∧ best cards = ↑(strength five) ∧
      name = nameOf (category five) ∧
      unroundedScore name (encode (category five) (tiebreakIndices five)) hole community =
        .ok score := by
  obtain ⟨hole, community, best5Cards, details, readHole, readCommunity, rfl, distinct, accepted,
    scored⟩ := graded
  obtain ⟨two, three, few⟩ := accepted_sizes accepted
  have holeSize := parseCards_length readHole
  have communitySize := parseCards_length readCommunity
  rw [List.length_map] at holeSize communitySize
  have enough : 5 ≤ (hole ++ community).length := by
    rw [List.length_append]
    omega
  obtain ⟨five, inside, rounded, worth, evaluated⟩ := evaluateParsed_best enough distinct
  obtain ⟨kept, size⟩ := List.mem_sublistsLen.mp inside
  rw [evaluateHand_of_parsed two three few readHole readCommunity, evaluated, Except.ok.injEq,
    Reply.hand.injEq] at accepted
  obtain ⟨named, _, _, _, rfl⟩ := accepted
  exact ⟨five, _, _, size, distinct.sublist kept, worth, (HandName.text_injective named).symm,
    scored⟩

theorem Graded.facts (graded : Graded lib holeCards communityCards cards name score)
    (trips : HandName.threeOfAKind.rank ≤ name.rank) :
    (InBand cards name score ↔ ¬ heavyFlush cards) ∧ name.band.1 ≤ score ∧
      (InBand cards name score → name ≠ .straightFlush → score ≤ name.band.2) ∧
      (name = .threeOfAKind → score = 90) ∧ (name ≠ .threeOfAKind → 90 < score) := by
  obtain ⟨five, hole, community, size, distinct, worth, rfl, scored⟩ := graded.best_five
  have high : 4 ≤ (category five).value := by
    cases named : category five <;> rw [named] at trips <;>
      first | decide | exact absurd trips (by decide)
  obtain ⟨exact, computed, royal, usual, three, above⟩ :=
    unroundedScore_encode size distinct high hole community
  rw [scored, Except.ok.injEq] at computed
  subst computed
  have heavy : heavyFlush cards ↔
      category five = .flush ∧ 60 * 13 < flushWeight (tiebreak five) := by
    unfold heavyFlush
    rw [worth]
    constructor
    · rintro ⟨ranks, same, beyond⟩
      rw [WithBot.coe_inj, strength, toLex_inj, Prod.mk.injEq] at same
      exact ⟨HandRank.value_injective same.1, by rwa [same.2]⟩
    · rintro ⟨flush, beyond⟩
      exact ⟨_, by rw [strength, flush], beyond⟩
  have noTrips : nameOf (category five) = .threeOfAKind → category five = .threeOfAKind := by
    intro named
    cases ranked : category five <;> rw [ranked] at named <;> first | rfl | cases named
  have top : best cards = ↑(toLex (HandRank.royalFlush.value, [14])) ↔
      category five = .royalFlush := by
    rw [worth, WithBot.coe_inj, strength, toLex_inj, Prod.mk.injEq]
    constructor
    · exact fun same => HandRank.value_injective same.1
    · intro royal
      obtain ⟨top, found, _, _, _, _, ace⟩ := top_of_straight (Or.inr (Or.inr royal))
      rw [royal, tiebreak, found, ace royal]
      exact ⟨rfl, rfl⟩
  unfold InBand
  by_cases crowned : category five = .royalFlush
  · rw [if_pos (top.mpr crowned), heavy, royal crowned, crowned]
    exact ⟨iff_of_true rfl (by simp), by norm_num [nameOf, HandName.band],
      fun _ other => absurd rfl other, Not.elim (by decide), fun _ => by norm_num⟩
  · obtain ⟨least, most⟩ := usual crowned
    rw [if_neg (mt top.mp crowned), heavy, ← most]
    refine ⟨and_iff_right least, least, fun within _ => within.2, fun named => three (noTrips named),
      fun other => above ?_⟩
    intro named
    exact other (by rw [named]; rfl)

end Accepted

theorem score_lt_of_bands {name other : HandName} {score rival : ℚ}
    (trips : HandName.threeOfAKind.rank ≤ name.rank) (below : name.rank < other.rank)
    (high : name ≠ .straightFlush → score ≤ name.band.2) (low : other.band.1 ≤ rival)
    (three : name = .threeOfAKind → score = 90) (above : other ≠ .threeOfAKind → 90 < rival) :
    score < rival := by
  by_cases least : name = .threeOfAKind
  · subst least
    rw [three rfl]
    apply above
    rintro rfl
    exact absurd below (lt_irrefl _)
  · have notTop : name ≠ .straightFlush := by
      rintro rfl
      cases other <;> exact absurd below (by decide)
    have apart : name.band.2 < other.band.1 := by
      cases name <;> cases other <;>
        first
        | exact absurd trips (by decide)
        | exact absurd below (by decide)
        | exact absurd rfl least
        | norm_num [HandName.band]
    exact lt_of_le_of_lt (high notTop) (lt_of_lt_of_le apart low)

/-- Of two accepted inputs from three of a kind up, both scores stay in their bands and the
higher category has the higher score exactly when neither is a flush of high cards. -/
theorem scores_follow_categories_iff {lib : CaseMap}
    {holeCards communityCards otherHole otherCommunity : List String} {cards others : List Card}
    {name other : HandName} {score rival : ℚ}
    (graded : Graded lib holeCards communityCards cards name score)
    (opposed : Graded lib otherHole otherCommunity others other rival)
    (trips : HandName.threeOfAKind.rank ≤ name.rank)
    (otherTrips : HandName.threeOfAKind.rank ≤ other.rank) :
    (InBand cards name score ∧ InBand others other rival ∧
      (name.rank < other.rank → score < rival) ∧ (other.rank < name.rank → rival < score)) ↔
      ¬ heavyFlush cards ∧ ¬ heavyFlush others := by
  obtain ⟨within, low, high, three, above⟩ := graded.facts trips
  obtain ⟨otherWithin, otherLow, otherHigh, otherThree, otherAbove⟩ := opposed.facts otherTrips
  rw [← within, ← otherWithin]
  constructor
  · rintro ⟨first, second, _⟩
    exact ⟨first, second⟩
  · rintro ⟨first, second⟩
    refine ⟨first, second, ?_, ?_⟩
    · intro below
      exact score_lt_of_bands trips below (high first) otherLow three otherAbove
    · intro below
      exact score_lt_of_bands otherTrips below (otherHigh second) low otherThree above

def aceFlush : List Card :=
  [14, 13, 12, 11, 9].filterMap fun rank => (Card.init rank .spades).toOption

def deucesFull : List Card :=
  [(2, .hearts), (2, .clubs), (2, .diamonds), (3, .spades), (3, .hearts)].filterMap
    fun card => (Card.init card.1 card.2).toOption

theorem deucesFull_graded : Graded asciiCase ["2♥", "2♣"] ["2♦", "3♠", "3♥"] deucesFull
    .fullHouse 94 :=
  ⟨deucesFull.take 2, deucesFull.drop 2, _, _, by decide, by decide, rfl,
    by decide, show evaluateHand asciiCase ["2♥", "2♣"] ["2♦", "3♠", "3♥"] =
      .ok (.hand "FULL_HOUSE" 6 [['2', 'h'], ['2', 'c'], ['2', 'd'], ['3', 's'], ['3', 'h']]
        (roundHundredths 94) ⟨6, 0, 1, []⟩) by decide +kernel, by decide +kernel⟩

/-- A flush of high cards is scored above a full house, and out of its band. -/
theorem ace_flush_scores_above_full_house :
    Graded asciiCase ["A♠", "K♠"] ["Q♠", "J♠", "9♠"] aceFlush .flush
        (92 + 1469 / 780 * (199 / 100)) ∧
      Graded asciiCase ["2♥", "2♣"] ["2♦", "3♠", "3♥"] deucesFull .fullHouse 94 ∧
      HandName.flush.rank < HandName.fullHouse.rank ∧
      ¬ 92 + 1469 / 780 * (199 / 100) < (94 : ℚ) ∧
      ¬ InBand aceFlush .flush (92 + 1469 / 780 * (199 / 100)) := by
  refine ⟨?_, deucesFull_graded, by decide, by norm_num, ?_⟩
  · exact ⟨aceFlush.take 2, aceFlush.drop 2, _, _, by decide, by decide, rfl,
      by decide, show evaluateHand asciiCase ["A♠", "K♠"] ["Q♠", "J♠", "9♠"] =
        .ok (.hand "FLUSH" 5 [['A', 's'], ['K', 's'], ['Q', 's'], ['J', 's'], ['9', 's']]
          (roundHundredths (92 + 1469 / 780 * (199 / 100))) ⟨5, 0, 0, [12, 11, 10, 9, 7]⟩)
        by decide +kernel, by decide +kernel⟩
  · unfold InBand
    split
    · norm_num
    · norm_num [HandName.band]

def threeQueens : List Card :=
  [(12, .spades), (12, .hearts), (12, .clubs), (9, .diamonds), (4, .spades)].filterMap
    fun card => (Card.init card.1 card.2).toOption

theorem threeQueens_graded : Graded asciiCase ["Q♠", "Q♥"] ["Q♣", "9♦", "4♠"] threeQueens
    .threeOfAKind 90 :=
  ⟨threeQueens.take 2, threeQueens.drop 2, _, _, by decide, by decide, rfl,
    by decide, show evaluateHand asciiCase ["Q♠", "Q♥"] ["Q♣", "9♦", "4♠"] =
      .ok (.hand "THREE_OF_A_KIND" 3 [['Q', 's'], ['Q', 'h'], ['Q', 'c'], ['9', 'd'], ['4', 's']]
        (roundHundredths 90) ⟨3, 10, 0, [7, 2]⟩) by rfl, by rfl⟩

theorem not_heavy {cards : List Card} {worth : Nat ×ₗ List Nat} (ranked : best cards = ↑worth)
    (other : (ofLex worth).1 ≠ HandRank.flush.value) : ¬ heavyFlush cards := by
  rintro ⟨ranks, same, _⟩
  rw [ranked, WithBot.coe_inj] at same
  subst same
  exact other rfl

theorem scores_follow_categories_queens :
    InBand threeQueens .threeOfAKind 90 ∧ InBand deucesFull .fullHouse 94 ∧ (90 : ℚ) < 94 := by
  have queens : best threeQueens = ↑(toLex (4, [12, 9, 4])) := by decide
  have deuces : best deucesFull = ↑(toLex (7, [2, 3])) := by decide
  obtain ⟨mine, theirs, below, _⟩ := (scores_follow_categories_iff threeQueens_graded
    deucesFull_graded (by decide) (by decide)).mpr
      ⟨not_heavy queens (by decide), not_heavy deuces (by decide)⟩
  exact ⟨mine, theirs, below (by decide)⟩

end Holdem.Team1
