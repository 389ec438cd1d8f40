import Holdem.SidePots

set_option autoImplicit false

/- The laws of `evaluate_hand` on any five cards or more, and the three ways in which the
program compares two of its hands. -/
namespace Holdem

open StandardPoker

theorem HandResult.worth_eq_iff (hand other : HandResult) :
    hand.worth = other.worth ↔ hand.rank = other.rank ∧ hand.kickers = other.kickers := by
  unfold HandResult.worth
  rw [toLex_inj, Prod.mk.injEq]
  refine and_congr_left' ⟨HandRank.value_injective, ?_⟩
  intro same
  rw [same]

/-! ### The best hand of a collection -/

theorem evaluateFiveCards_ok {five : List Card} {hand : HandResult} :
    evaluateFiveCards five = .ok hand ↔ five.length = 5 ∧ classifyFive five = hand := by
  unfold evaluateFiveCards
  by_cases size : five.length = 5
  · simp [size]
  · simp [size]

theorem suited_perm {left right : List Card} (same : left.Perm right) :
    suited left = suited right := by
  rw [Bool.eq_iff_iff]
  simp only [suited, List.all_eq_true, same.mem_iff]

/-- The order of five cards has no effect on the rank and the kickers. -/
theorem classifyFive_perm {left right : List Card} (size : left.length = 5)
    (same : left.Perm right) : (classifyFive left).worth = (classifyFive right).worth := by
  have ranks : (sortByRank left).map Card.rank = (sortByRank right).map Card.rank := by
    have sorted := sortedRanks_eq
    unfold sortedRanks sortDescending at sorted
    rw [sorted, sorted]
    exact List.Perm.eq_of_pairwise' (List.pairwise_insertionSort _ _)
      (List.pairwise_insertionSort _ _) ((List.perm_insertionSort _ _).trans
        ((same.map Card.rank).trans (List.perm_insertionSort _ _).symm))
  have some : left ≠ [] := by
    rintro rfl
    cases size
  have others : right ≠ [] := by
    rintro rfl
    exact some same.eq_nil
  have flush := (flush_eq_suited some).trans ((suited_perm same).trans (flush_eq_suited others).symm)
  apply (HandResult.worth_eq_iff _ _).mpr
  unfold classifyFive
  simp only [ranks, flush, apply_ite HandResult.rank, apply_ite HandResult.kickers, and_self]

section Collections

variable {hole community : List Card}

/-- `evaluate_hand` returns one of the hands of five, in any order of the five, and none is
worth more. -/
theorem evaluateHand_subperm (enough : 5 ≤ (hole ++ community).length) :
    ∃ hand, evaluateHand hole community = .ok hand ∧
      (∃ five, five.Subperm (hole ++ community) ∧ evaluateFiveCards five = .ok hand) ∧
      ∀ five other, five.Subperm (hole ++ community) → evaluateFiveCards five = .ok other →
        other.worth ≤ hand.worth := by
  obtain ⟨hand, returned, ⟨five, inside, rfl⟩, most⟩ := evaluateHand_greatest enough
  refine ⟨_, returned, ⟨five, ?_, ?_⟩, ?_⟩
  · exact (List.mem_sublistsLen.mp inside).1.subperm
  · exact evaluateFiveCards_ok.mpr ⟨(List.mem_sublistsLen.mp inside).2, rfl⟩
  · rintro picked other ⟨ordered, same, kept⟩ evaluated
    obtain ⟨size, rfl⟩ := evaluateFiveCards_ok.mp evaluated
    rw [classifyFive_perm size same.symm]
    exact most ordered (List.mem_sublistsLen.mpr ⟨kept, same.length_eq.trans size⟩)

/-- More cards make no worse a hand. -/
theorem evaluateHand_mono {otherHole otherCommunity : List Card} {hand other : HandResult}
    (enough : 5 ≤ (hole ++ community).length)
    (more : (hole ++ community).Subperm (otherHole ++ otherCommunity))
    (mine : evaluateHand hole community = .ok hand)
    (theirs : evaluateHand otherHole otherCommunity = .ok other) : hand.worth ≤ other.worth := by
  obtain ⟨first, returned, ⟨five, inside, evaluated⟩, _⟩ := evaluateHand_subperm enough
  obtain ⟨second, answered, _, most⟩ := evaluateHand_subperm (enough.trans more.length_le)
  rw [mine, Except.ok.injEq] at returned
  rw [theirs, Except.ok.injEq] at answered
  subst returned answered
  exact most five _ (inside.trans more) evaluated

end Collections

/-- For all five cards or more, however they are ordered and split, `evaluate_hand` returns the
best of their hands of five, and a further community card never lowers it. -/
theorem evaluateHand_laws (hole community : List Card) (enough : 5 ≤ (hole ++ community).length) :
    ∃ hand, evaluateHand hole community = .ok hand ∧
      (∃ five, five.Subperm (hole ++ community) ∧ evaluateFiveCards five = .ok hand) ∧
      (∀ five other, five.Subperm (hole ++ community) → evaluateFiveCards five = .ok other →
        ¬ hand.worth < other.worth) ∧
      (∀ otherHole otherCommunity, (otherHole ++ otherCommunity).Perm (hole ++ community) →
        ∃ other, evaluateHand otherHole otherCommunity = .ok other ∧
          other.rank = hand.rank ∧ other.kickers = hand.kickers) ∧
      ∀ card wider, wider.Perm (card :: community) →
        ∃ more, evaluateHand hole wider = .ok more ∧ hand.worth ≤ more.worth := by
  obtain ⟨hand, returned, origin, most⟩ := evaluateHand_subperm enough
  refine ⟨hand, returned, origin, ?_, ?_, ?_⟩
  · intro five other inside evaluated
    exact not_lt.mpr (most five other inside evaluated)
  · intro otherHole otherCommunity same
    have size : 5 ≤ (otherHole ++ otherCommunity).length := by
      rw [same.length_eq]
      exact enough
    obtain ⟨other, answered, _⟩ := evaluateHand_subperm size
    refine ⟨other, answered, (HandResult.worth_eq_iff _ _).mp (le_antisymm ?_ ?_)⟩
    · exact evaluateHand_mono size same.subperm answered returned
    · exact evaluateHand_mono enough same.symm.subperm returned answered
  · intro card wider added
    have more : (hole ++ community).Subperm (hole ++ wider) :=
      (List.subperm_append_left hole).mpr
        ((List.sublist_cons_self card community).subperm.trans added.symm.subperm)
    obtain ⟨other, answered, _⟩ := evaluateHand_subperm (enough.trans more.length_le)
    exact ⟨other, answered, evaluateHand_mono enough more returned answered⟩

/-- Two aces on a dry board. -/
theorem evaluateHand_laws_aces :
    ∃ hand, evaluateHand (pairOf 14 (by decide) (by decide)) dryBoard = .ok hand ∧
      ∃ other, evaluateHand dryBoard (pairOf 14 (by decide) (by decide)) = .ok other ∧
        other.rank = hand.rank ∧ other.kickers = hand.kickers := by
  obtain ⟨hand, returned, _, _, anyOrder, _⟩ :=
    evaluateHand_laws (pairOf 14 (by decide) (by decide)) dryBoard (by decide)
  exact ⟨hand, returned, anyOrder _ _ List.perm_append_comm⟩

/-! ### The three comparisons -/

/-- A hand that `evaluate_hand` returns for five distinct cards or more. -/
def Evaluated (hand : HandResult) : Prop :=
  ∃ hole community, 5 ≤ (hole ++ community).length ∧ (hole ++ community).Nodup ∧
    evaluateHand hole community = .ok hand

theorem Evaluated.sized {hand : HandResult} (evaluated : Evaluated hand) :
    hand.kickers.length = hand.rank.kickerCount := by
  obtain ⟨hole, community, enough, _, returned⟩ := evaluated
  obtain ⟨other, answered, ⟨five, inside, rfl⟩, _⟩ := evaluateHand_greatest enough
  rw [answered, Except.ok.injEq] at returned
  rw [← returned]
  exact classifyFive_sized (List.mem_sublistsLen.mp inside).2

theorem lt_iff_worth {left right : HandResult}
    (mine : left.kickers.length = left.rank.kickerCount)
    (theirs : right.kickers.length = right.rank.kickerCount) :
    left.lt right = true ↔ left.worth < right.worth := by
  unfold HandResult.lt HandResult.worth
  rw [Prod.Lex.toLex_lt_toLex]
  by_cases same : left.rank = right.rank
  · have order := kickersLt_iff (mine.trans ((congrArg _ same).trans theirs.symm))
    simp [same, order]
  · have apart : left.rank.value ≠ right.rank.value := fun equal =>
      same (HandRank.value_injective equal)
    simp [apart]

theorem eq_iff_worth (left right : HandResult) :
    left.eq right = true ↔ left.worth = right.worth := by
  rw [HandResult.worth_eq_iff]
  simp [HandResult.eq]

theorem compareKickers_spec {mine theirs : List Nat} (size : mine.length = theirs.length) :
    (compareKickers mine theirs = 1 ∧ theirs < mine) ∨
      (compareKickers mine theirs = -1 ∧ mine < theirs) ∨
      (compareKickers mine theirs = 0 ∧ mine = theirs) := by
  induction mine generalizing theirs with
  | nil =>
      cases theirs with
      | nil => exact Or.inr (Or.inr ⟨rfl, rfl⟩)
      | cons first rest => cases size
  | cons kicker others ih =>
      cases theirs with
      | nil => cases size
      | cons first rest =>
          rw [compareKickers]
          simp only [List.cons_lt_cons_iff, List.cons.injEq]
          rcases Nat.lt_trichotomy kicker first with below | same | above
          · rw [if_neg (by omega), if_pos below]
            exact Or.inr (Or.inl ⟨rfl, Or.inl below⟩)
          · rw [if_neg (by omega), if_neg (by omega)]
            simpa [same] using ih (by simpa using size)
          · rw [if_pos above]
            exact Or.inl ⟨rfl, Or.inl above⟩

theorem compareHands_spec {left right : HandResult}
    (mine : left.kickers.length = left.rank.kickerCount)
    (theirs : right.kickers.length = right.rank.kickerCount) :
    (compareHands left right = 1 ∧ right.worth < left.worth) ∨
      (compareHands left right = -1 ∧ left.worth < right.worth) ∨
      (compareHands left right = 0 ∧ left.worth = right.worth) := by
  unfold compareHands HandResult.worth
  simp only [Prod.Lex.toLex_lt_toLex, toLex_inj, Prod.mk.injEq]
  rcases Nat.lt_trichotomy left.rank.value right.rank.value with below | same | above
  · rw [if_neg (by omega), if_pos below]
    exact Or.inr (Or.inl ⟨rfl, Or.inl below⟩)
  · rw [if_neg (by omega), if_neg (by omega)]
    have ranks := HandRank.value_injective same
    simpa [same] using compareKickers_spec (mine.trans ((congrArg _ ranks).trans theirs.symm))
  · rw [if_pos above]
    exact Or.inl ⟨rfl, Or.inl above⟩

section Comparisons

variable {left right third : HandResult}

theorem compareHands_sign (mine : Evaluated left) (theirs : Evaluated right) :
    (compareHands left right = 1 ↔ right.worth < left.worth) ∧
      (compareHands left right = -1 ↔ left.worth < right.worth) ∧
      (compareHands left right = 0 ↔ left.worth = right.worth) ∧
      (0 ≤ compareHands left right ↔ right.worth ≤ left.worth) := by
  rcases compareHands_spec mine.sized theirs.sized with ⟨sign, order⟩ | ⟨sign, order⟩ |
    ⟨sign, order⟩
  · rw [sign]
    simp [order, order.le, order.not_gt, order.ne']
  · rw [sign]
    simp [order, order.not_ge, order.not_gt, order.ne]
  · rw [sign]
    simp [order]

theorem compareHands_antisymm (mine : Evaluated left) (theirs : Evaluated right) :
    compareHands right left = -compareHands left right := by
  obtain ⟨up, down, same, _⟩ := compareHands_sign theirs mine
  rcases compareHands_spec mine.sized theirs.sized with ⟨sign, order⟩ | ⟨sign, order⟩ |
    ⟨sign, order⟩
  · rw [sign, down.mpr order]
  · rw [sign, up.mpr order]
    rfl
  · rw [sign, same.mpr order.symm]
    rfl

end Comparisons

/-! ### The winners among the eligible players -/

/-- The player shows a hand that `compare_hands` puts below no other eligible hand. -/
def holdsMaximal (handsById : List (Int × HandResult)) (eligibleIds : List Int)
    (playerId : Int) : Bool :=
  match handsById.lookup playerId with
  | none => false
  | some hand => eligibleIds.all fun other =>
      match handsById.lookup other with
      | none => true
      | some theirs => decide (0 ≤ compareHands hand theirs)

/-- Whether an id is rated as the best hand found so far, and shows a hand at all. -/
def ratedAs (handsById : List (Int × HandResult)) (best : Option HandResult)
    (playerId : Int) : Bool :=
  decide (rated (handsById.lookup playerId) = rated best ∧
    rated (handsById.lookup playerId) ≠ ⊥)

/-- One more id keeps the winners what they are: the ids seen that are rated as the best. -/
theorem considerWinner_filter {handsById : List (Int × HandResult)} {seen : List Int}
    {state : List Int × Option HandResult}
    (bound : ∀ other ∈ seen, rated (handsById.lookup other) ≤ rated state.2)
    (kept : state.1 = seen.filter (ratedAs handsById state.2)) (playerId : Int) :
    (considerWinner handsById state playerId).1 = (seen ++ [playerId]).filter
      (ratedAs handsById (considerWinner handsById state playerId).2) := by
  rw [List.filter_append]
  rcases considerWinner_cases handsById state playerId with
    ⟨beats, next⟩ | ⟨ties, shown, next⟩ | ⟨loses, next⟩
  · have none : seen.filter (ratedAs handsById (handsById.lookup playerId)) = [] := by
      rw [List.filter_eq_nil_iff]
      intro other member same
      have equal := (of_decide_eq_true same).1
      exact absurd (equal ▸ bound other member) (not_le.mpr beats)
    have new : ratedAs handsById (handsById.lookup playerId) playerId = true :=
      decide_eq_true ⟨rfl, ne_bot_of_gt beats⟩
    rw [next, none, List.filter_singleton, new]
    rfl
  · have new : ratedAs handsById state.2 playerId = true := decide_eq_true ⟨ties, shown⟩
    rw [next, List.filter_singleton, new, ← kept]
    rfl
  · have out : ratedAs handsById state.2 playerId = false := by
      apply decide_eq_false
      rintro ⟨same, some⟩
      rcases loses with below | none
      · exact absurd same (ne_of_lt below)
      · exact some none
    rw [next, List.filter_singleton, out, ← kept]
    exact (List.append_nil _).symm

theorem determineWinnerIds_eq (handsById : List (Int × HandResult)) (ids : List Int) :
    (determineWinnerIds handsById ids).1 =
      ids.filter (ratedAs handsById (determineWinnerIds handsById ids).2) := by
  have general : ∀ (later seen : List Int) (state : List Int × Option HandResult),
      BestSoFar handsById seen state → state.1 = seen.filter (ratedAs handsById state.2) →
      (later.foldl (considerWinner handsById) state).1 = (seen ++ later).filter
        (ratedAs handsById (later.foldl (considerWinner handsById) state).2) := by
    intro later
    induction later with
    | nil =>
        intro seen state _ kept
        rwa [List.append_nil]
    | cons playerId rest ih =>
        intro seen state known kept
        rw [List.append_cons]
        exact ih _ _ (known.consider playerId) (considerWinner_filter known.bound kept playerId)
  exact general ids [] ([], none) ⟨List.Sublist.refl _, by simp, by simp⟩ rfl

section Winners

variable {handsById : List (Int × HandResult)}

theorem evaluated_of_lookup (all : ∀ entry ∈ handsById, Evaluated entry.2) {playerId : Int}
    {hand : HandResult} (found : handsById.lookup playerId = some hand) : Evaluated hand := by
  obtain ⟨before, after, whole, _⟩ := List.lookup_eq_some_iff.mp found
  exact all (playerId, hand) (by simp [whole])

theorem holdsMaximal_iff (all : ∀ entry ∈ handsById, Evaluated entry.2) (ids : List Int)
    (playerId : Int) :
    holdsMaximal handsById ids playerId = true ↔ rated (handsById.lookup playerId) ≠ ⊥ ∧
      ∀ other ∈ ids, rated (handsById.lookup other) ≤ rated (handsById.lookup playerId) := by
  unfold holdsMaximal
  cases mine : handsById.lookup playerId with
  | none => simp
  | some hand =>
      simp only [List.all_eq_true, rated_some, ne_eq, WithBot.coe_ne_bot, not_false_eq_true,
        true_and]
      refine forall₂_congr fun other member => ?_
      cases theirs : handsById.lookup other with
      | none => simp
      | some shown =>
          rw [rated_some, WithBot.coe_le_coe, decide_eq_true_iff]
          exact (compareHands_sign (evaluated_of_lookup all mine)
            (evaluated_of_lookup all theirs)).2.2.2

theorem determineWinnerIds_eq_filter (all : ∀ entry ∈ handsById, Evaluated entry.2)
    (ids : List Int) :
    (determineWinnerIds handsById ids).1 = ids.filter (holdsMaximal handsById ids) := by
  have kept := determineWinnerIds_eq handsById ids
  rw [kept]
  apply List.filter_congr
  intro playerId member
  rw [Bool.eq_iff_iff, holdsMaximal_iff all]
  have winner := @mem_determineWinnerIds handsById ids playerId
  rw [kept, List.mem_filter] at winner
  simpa [member] using winner

end Winners

/-- On the hands of five distinct cards or more `__lt__`, `__eq__`, `compare_hands` and the
comparisons of `determine_winner_ids` are one total preorder, and its greatest elements win. -/
theorem comparisons_agree {left right third : HandResult} (mine : Evaluated left)
    (theirs : Evaluated right) (others : Evaluated third) :
    ((left.lt right = true ↔ left.worth < right.worth) ∧
      (left.eq right = true ↔ left.worth = right.worth) ∧
      (compareHands left right = -1 ↔ left.worth < right.worth) ∧
      (compareHands left right = 1 ↔ right.worth < left.worth) ∧
      (compareHands left right = 0 ↔ left.eq right = true) ∧
      (handBeats left right = true ↔ right.worth < left.worth) ∧
      (handTies left right = true ↔ left.worth = right.worth)) ∧
    compareHands right left = -compareHands left right ∧
    (0 ≤ compareHands left right → 0 ≤ compareHands right third →
      0 ≤ compareHands left third) ∧
    ∀ handsById, (∀ entry ∈ handsById, Evaluated entry.2) → ∀ eligibleIds,
      (determineWinnerIds handsById eligibleIds).1 =
        eligibleIds.filter (holdsMaximal handsById eligibleIds) := by
  obtain ⟨up, down, same, above⟩ := compareHands_sign mine theirs
  have equal := eq_iff_worth left right
  refine ⟨⟨lt_iff_worth mine.sized theirs.sized, equal, down, up, same.trans equal.symm,
    handBeats_iff left right, handTies_iff left right⟩, compareHands_antisymm mine theirs, ?_,
    fun handsById all eligibleIds => determineWinnerIds_eq_filter all eligibleIds⟩
  rw [above, (compareHands_sign theirs others).2.2.2, (compareHands_sign mine others).2.2.2]
  exact fun first second => second.trans first

/-- The lowest straight flush, the next one and a dry hand: the first is above the third. -/
theorem comparisons_agree_flushes :
    ∃ wheel sixHigh dry, evaluateHand (heartsWheel.take 2) (heartsWheel.drop 2) = .ok wheel ∧
      evaluateHand (spadesSixHigh.take 2) (spadesSixHigh.drop 2) = .ok sixHigh ∧
      evaluateHand (dryBoard.take 2) (dryBoard.drop 2) = .ok dry ∧
      0 ≤ compareHands wheel dry ∧ compareHands sixHigh wheel = -compareHands wheel sixHigh ∧
      (determineWinnerIds [(0, wheel), (1, sixHigh), (2, dry)] [2, 1]).1 =
        [2, 1].filter (holdsMaximal [(0, wheel), (1, sixHigh), (2, dry)] [2, 1]) := by
  refine ⟨_, _, _, rfl, rfl, rfl, ?_⟩
  have wheel : Evaluated _ := ⟨heartsWheel.take 2, heartsWheel.drop 2, by decide, by decide, rfl⟩
  have sixHigh : Evaluated _ :=
    ⟨spadesSixHigh.take 2, spadesSixHigh.drop 2, by decide, by decide, rfl⟩
  have dry : Evaluated _ := ⟨dryBoard.take 2, dryBoard.drop 2, by decide, by decide, rfl⟩
  obtain ⟨_, mirrored, above, winners⟩ := comparisons_agree wheel sixHigh dry
  refine ⟨above (by decide) (by decide), mirrored, winners _ ?_ _⟩
  intro entry member
  simp only [List.mem_cons, List.not_mem_nil, or_false] at member
  rcases member with rfl | rfl | rfl
  · exact wheel
  · exact sixHigh
  · exact dry

end Holdem
