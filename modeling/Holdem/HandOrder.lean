import Holdem.HandClass
import Holdem.Showdown

set_option autoImplicit false

namespace Holdem

open StandardPoker

/-- The rank and the kickers of a hand, in the order in which they are compared. -/
def HandResult.worth (hand : HandResult) : ℕ ×ₗ List ℕ := toLex (hand.rank.value, hand.kickers)

theorem HandRank.value_injective {left right : HandRank} (same : left.value = right.value) :
    left = right := by
  cases left <;> cases right <;> first | rfl | exact absurd same (by decide)

theorem kickersLt_iff {mine theirs : List Nat} (size : mine.length = theirs.length) :
    kickersLt mine theirs = true ↔ mine < theirs := by
  induction mine generalizing theirs with
  | nil =>
      cases theirs with
      | nil => simp [kickersLt]
      | cons first rest => cases size
  | cons kicker others ih =>
      cases theirs with
      | nil => cases size
      | cons first rest =>
          rw [kickersLt, List.cons_lt_cons_iff]
          by_cases same : kicker = first
          · subst same
            rw [if_neg (by simp), ih (by simpa using size)]
            simp
          · rw [if_pos same]
            simp [same]

theorem replacesBest_iff {hand best : HandResult} (mine : hand.kickers.length = hand.rank.kickerCount)
    (theirs : best.kickers.length = best.rank.kickerCount) :
    replacesBest hand (some best) = true ↔ best.worth ≤ hand.worth := by
  unfold replacesBest HandResult.worth
  rw [Prod.Lex.toLex_le_toLex]
  by_cases same : hand.rank = best.rank
  · have size : hand.kickers.length = best.kickers.length := by rw [mine, theirs, same]
    have order := kickersLt_iff size
    simp only [same, HandResult.lt, ne_eq, not_true_eq_false, ↓reduceIte, lt_irrefl, decide_false,
      beq_self_eq_true, Bool.true_and, Bool.false_or, true_and, false_or, Bool.not_eq_true']
    rw [← not_lt, ← order]
    simp
  · have apart : hand.rank.value ≠ best.rank.value := fun equal => same (HandRank.value_injective equal)
    simp [beq_false_of_ne same, Ne.symm apart]

section FiveCards

variable {five : List Card}

/-- What the code makes of five cards is their usual worth, or a royal flush. -/
theorem classifyFive_worth (size : five.length = 5) (distinct : five.Nodup) :
    (classifyFive five).worth = if runTop five = 5 then toLex (10, [14]) else strength five := by
  unfold HandResult.worth
  split
  · rename_i wheel
    obtain ⟨rank, kickers⟩ := classifyFive_of_wheel size distinct wheel
    rw [rank, kickers]
    rfl
  · rename_i usual
    obtain ⟨rank, kickers, _⟩ := classifyFive_of_usual size distinct usual
    rw [rank, kickers]
    rfl

theorem classifyFive_sized (size : five.length = 5) :
    (classifyFive five).kickers.length = (classifyFive five).rank.kickerCount := by
  have ranks : ((sortByRank five).map Card.rank).length = 5 := sortedRanks_length size
  have sorted : ∀ copies, (sortDescending
      (ranksCounted (counter ((sortByRank five).map Card.rank)) copies)).length =
        (countPattern five).count copies := by
    intro copies
    rw [sortDescending, List.length_insertionSort]
    exact length_ranksCounted five copies
  have either : ∀ {test : Prop} [Decidable test] {yes no : HandResult},
      (test → yes.kickers.length = yes.rank.kickerCount) →
      (¬ test → no.kickers.length = no.rank.kickerCount) →
      (if test then yes else no).kickers.length = (if test then yes else no).rank.kickerCount :=
    iteInduction (motive := fun hand : HandResult => hand.kickers.length = hand.rank.kickerCount)
  unfold classifyFive
  dsimp only
  refine either (fun _ => rfl) fun _ => ?_
  refine either (fun _ => rfl) fun _ => ?_
  refine either (fun _ => rfl) fun _ => ?_
  refine either (fun _ => rfl) fun _ => ?_
  refine either (fun _ => ranks) fun _ => ?_
  refine either (fun _ => rfl) fun _ => ?_
  refine either (fun three => ?_) fun _ =>
    either (fun pairs => ?_) fun _ => either (fun pair => ?_) fun _ => ranks
  · have pattern : countPattern five = [3, 1, 1] := beq_iff_eq.mp three
    show (sortDescending _).length + 1 = 3
    rw [sorted, pattern]
    rfl
  · have pattern : countPattern five = [2, 2, 1] := beq_iff_eq.mp pairs
    show (sortDescending _ ++ [_]).length = 3
    rw [List.length_append, sorted, pattern]
    rfl
  · have pattern : countPattern five = [2, 1, 1, 1] := beq_iff_eq.mp pair
    show (sortDescending _).length + 1 = 4
    rw [sorted, pattern]
    rfl

end FiveCards

theorem bestOf_eq (combos : List (List Card)) (valid : ∀ five ∈ combos, five.length = 5)
    (best : HandResult) :
    bestOf (some best) combos = .ok (some (Combinations.keepBest
      (fun hand best => replacesBest hand (some best)) best (combos.map classifyFive))) := by
  induction combos generalizing best with
  | nil => rfl
  | cons first rest ih =>
      have later : ∀ five ∈ rest, five.length = 5 := fun five member =>
        valid five (List.mem_cons_of_mem _ member)
      have returned : evaluateFiveCards first = .ok (classifyFive first) := by
        unfold evaluateFiveCards
        rw [if_neg (by simpa using valid first (by simp))]
      rw [bestOf, returned]
      dsimp only
      rw [← apply_ite some, ih later]
      rfl

theorem bestOf_some (combos : List (List Card))
    (valid : ∀ five ∈ combos, five.length = 5) (best : HandResult)
    (sized : best.kickers.length = best.rank.kickerCount) :
    ∃ hand, bestOf (some best) combos = .ok (some hand) ∧
      (hand = best ∨ ∃ five ∈ combos, hand = classifyFive five) ∧ best.worth ≤ hand.worth ∧
      ∀ five ∈ combos, (classifyFive five).worth ≤ hand.worth := by
  have handsSized : ∀ hand ∈ combos.map classifyFive,
      hand.kickers.length = hand.rank.kickerCount := by
    intro hand member
    obtain ⟨five, inside, rfl⟩ := List.mem_map.mp member
    exact classifyFive_sized (valid five inside)
  obtain ⟨origin, least, most⟩ := Combinations.keepBest_spec HandResult.worth
    (fun new old newSized oldSized => (replacesBest_iff newSized oldSized).mp)
    (by
      intro new old newSized oldSized kept
      rw [← Bool.not_eq_true, replacesBest_iff newSized oldSized] at kept
      exact le_of_lt (not_le.mp kept))
    best (combos.map classifyFive) sized handsSized
  refine ⟨_, bestOf_eq combos valid best, ?_, least, ?_⟩
  · rcases origin with same | inside
    · exact Or.inl same
    · obtain ⟨five, member, same⟩ := List.mem_map.mp inside
      exact Or.inr ⟨five, member, same.symm⟩
  · intro five member
    exact most _ (List.mem_map_of_mem member)

section Collections

variable {hole community : List Card}

/-- `evaluate_hand` on five cards or more returns one of their hands of five, worth the most
among them. -/
theorem evaluateHand_greatest (enough : 5 ≤ (hole ++ community).length) :
    ∃ hand, evaluateHand hole community = .ok hand ∧
      (∃ five ∈ (hole ++ community).sublistsLen 5, hand = classifyFive five) ∧
      ∀ five ∈ (hole ++ community).sublistsLen 5, (classifyFive five).worth ≤ hand.worth := by
  have same : ∀ five, five ∈ Combinations.choose 5 (hole ++ community) ↔
      five ∈ (hole ++ community).sublistsLen 5 := by
    intro five
    rw [Combinations.mem_choose, List.mem_sublistsLen]
  have valid : ∀ five ∈ Combinations.choose 5 (hole ++ community), five.length = 5 :=
    fun five member => (Combinations.mem_choose.mp member).2
  unfold evaluateHand
  dsimp only
  rw [if_neg (by omega)]
  cases combos : Combinations.choose 5 (hole ++ community) with
  | nil => exact absurd combos (Combinations.choose_ne_nil enough)
  | cons first rest =>
      rw [combos] at valid
      simp only [← same, combos]
      have size := valid first (by simp)
      have returned : evaluateFiveCards first = .ok (classifyFive first) := by
        unfold evaluateFiveCards
        rw [if_neg (by simpa using size)]
      obtain ⟨hand, looped, origin, least, most⟩ := bestOf_some rest
        (fun five member => valid five (List.mem_cons_of_mem _ member)) (classifyFive first)
        (classifyFive_sized size)
      have whole : bestOf none (first :: rest) = .ok (some hand) := by
        rw [bestOf, returned]
        exact looped
      rw [whole]
      refine ⟨hand, rfl, ?_, ?_⟩
      · rcases origin with rfl | ⟨five, member, rfl⟩
        · exact ⟨first, by simp, rfl⟩
        · exact ⟨five, List.mem_cons_of_mem _ member, rfl⟩
      · intro five member
        rcases List.mem_cons.mp member with rfl | inside
        · exact least
        · exact most five inside

/-- The hand of a collection is worth what the collection is, unless it holds the lowest
straight flush: then it is worth a royal flush. -/
theorem evaluateHand_worth (enough : 5 ≤ (hole ++ community).length)
    (distinct : (hole ++ community).Nodup) :
    ∃ hand, evaluateHand hole community = .ok hand ∧
      (holdsSteelWheel (hole ++ community) = true → hand.worth = toLex (10, [14])) ∧
      (holdsSteelWheel (hole ++ community) = false → best (hole ++ community) = ↑hand.worth) := by
  obtain ⟨hand, returned, ⟨five, inside, rfl⟩, most⟩ := evaluateHand_greatest enough
  have worth : ∀ other ∈ (hole ++ community).sublistsLen 5, (classifyFive other).worth =
      if runTop other = 5 then toLex (10, [14]) else strength other := by
    intro other member
    obtain ⟨kept, size⟩ := List.mem_sublistsLen.mp member
    exact classifyFive_worth size (distinct.sublist kept)
  refine ⟨_, returned, ?_, ?_⟩
  · intro wheel
    obtain ⟨low, lowIn, lowTop⟩ := holdsSteelWheel_iff.mp wheel
    apply le_antisymm
    · rw [worth five inside]
      split
      · exact le_refl _
      · exact strength_le_royal
    · have above := most low lowIn
      rwa [worth low lowIn, if_pos lowTop] at above
  · intro usual
    have plain : ∀ other ∈ (hole ++ community).sublistsLen 5,
        (classifyFive other).worth = strength other := by
      intro other member
      rw [worth other member, if_neg]
      intro wheel
      rw [holdsSteelWheel_iff.mpr ⟨other, member, wheel⟩] at usual
      cases usual
    apply List.maximum_eq_coe_iff.mpr
    refine ⟨List.mem_map.mpr ⟨five, inside, (plain five inside).symm⟩, ?_⟩
    intro value member
    obtain ⟨other, there, rfl⟩ := List.mem_map.mp member
    rw [← plain other there]
    exact most other there

end Collections

theorem handBeats_iff (hand other : HandResult) :
    handBeats hand other = true ↔ other.worth < hand.worth := by
  unfold handBeats HandResult.worth
  rw [Prod.Lex.toLex_lt_toLex]
  simp only [Bool.or_eq_true, decide_eq_true_eq, Bool.and_eq_true, beq_iff_eq, gt_iff_lt]
  rw [@eq_comm _ hand.rank.value]

theorem handTies_iff (hand other : HandResult) :
    handTies hand other = true ↔ hand.worth = other.worth := by
  unfold handTies HandResult.worth
  rw [toLex_inj, Prod.mk.injEq]
  simp

/-- The hands returned for two collections compare as the collections do. -/
def ordersAlike (mine theirs : HandResult) (left right : List Card) : Prop :=
  (handBeats mine theirs = true ↔ best right < best left) ∧
    (handBeats theirs mine = true ↔ best left < best right) ∧
    (handTies mine theirs = true ↔ best left = best right)

/-- Neither collection holds A-2-3-4-5 in one suit, or the only one that does has the higher
straight flush, or both do and their highest straight flushes are equal. -/
def wheelsHarmless (left right : List Card) : Prop :=
  (holdsSteelWheel left = false ∧ holdsSteelWheel right = false) ∨
    (holdsSteelWheel left = true ∧ holdsSteelWheel right = false ∧
      bestRun right < bestRun left) ∨
    (holdsSteelWheel left = false ∧ holdsSteelWheel right = true ∧
      bestRun left < bestRun right) ∨
    (holdsSteelWheel left = true ∧ holdsSteelWheel right = true ∧ bestRun left = bestRun right)

theorem ordersAlike_comm {mine theirs : HandResult} {left right : List Card} :
    ordersAlike mine theirs left right ↔ ordersAlike theirs mine right left := by
  unfold ordersAlike
  rw [handTies_iff, handTies_iff, @eq_comm _ mine.worth, @eq_comm _ (best left)]
  exact and_left_comm

/-- Against a collection without the lowest straight flush, one with it keeps its place
exactly when it is the higher one. -/
theorem ordersAlike_of_one_wheel {mine theirs : HandResult} {left right : List Card}
    (leftEnough : 5 ≤ left.length) (leftFew : left.length ≤ 7) (rightEnough : 5 ≤ right.length)
    (wheel : holdsSteelWheel left = true) (royal : mine.worth = toLex (10, [14]))
    (usual : best right = ↑theirs.worth) :
    ordersAlike mine theirs left right ↔ bestRun right < bestRun left := by
  obtain ⟨low, worth⟩ := best_of_wheel leftEnough leftFew wheel
  have high := bestRun_lt_of_wheel leftFew wheel
  have order : best right < best left ↔ bestRun right < bestRun left := by
    rw [worth, ← not_le, run_le_best_iff rightEnough (by omega) (by omega), not_le]
  have below : best left < ↑mine.worth := by
    rw [worth, royal, WithBot.coe_lt_coe, Prod.Lex.toLex_lt_toLex]
    exact Or.inl (show 9 < 10 by decide)
  have most : best right ≤ ↑mine.worth := by
    rw [royal]
    exact best_le_royal rightEnough
  have mineOver : theirs.worth < mine.worth ↔ best right < ↑mine.worth := by
    rw [usual, WithBot.coe_lt_coe]
  have theirsOver : mine.worth < theirs.worth ↔ ↑mine.worth < best right := by
    rw [usual, WithBot.coe_lt_coe]
  have tie : mine.worth = theirs.worth ↔ ↑mine.worth = best right := by
    rw [usual, WithBot.coe_inj]
  unfold ordersAlike
  rw [handBeats_iff, handBeats_iff, handTies_iff, mineOver, theirsOver, tie, ← order]
  constructor
  · rintro ⟨first, _, third⟩
    rcases lt_or_eq_of_le most with less | same
    · exact first.mp less
    · have equal := third.mp same.symm
      rw [equal, same] at below
      exact absurd below (lt_irrefl _)
  · intro less
    have under := lt_trans less below
    refine ⟨⟨fun _ => less, fun _ => under⟩, ?_, ?_⟩
    · exact ⟨fun above => absurd above (lt_asymm under),
        fun above => absurd above (lt_asymm less)⟩
    · exact ⟨fun same => absurd same.symm (ne_of_lt under),
        fun same => absurd same.symm (ne_of_lt less)⟩

/-- Two collections with the lowest straight flush always tie in the code. -/
theorem ordersAlike_of_two_wheels {mine theirs : HandResult} {left right : List Card}
    (leftEnough : 5 ≤ left.length) (leftFew : left.length ≤ 7) (rightEnough : 5 ≤ right.length)
    (rightFew : right.length ≤ 7) (leftWheel : holdsSteelWheel left = true)
    (rightWheel : holdsSteelWheel right = true) (tie : mine.worth = theirs.worth) :
    ordersAlike mine theirs left right ↔ bestRun left = bestRun right := by
  have leftWorth := (best_of_wheel leftEnough leftFew leftWheel).2
  have rightWorth := (best_of_wheel rightEnough rightFew rightWheel).2
  have same : best left = best right ↔ bestRun left = bestRun right := by
    rw [leftWorth, rightWorth, WithBot.coe_inj, toLex_inj]
    simp
  unfold ordersAlike
  rw [handBeats_iff, handBeats_iff, handTies_iff, ← same, tie]
  constructor
  · rintro ⟨_, _, third⟩
    exact third.mp rfl
  · intro equal
    rw [equal]
    simp

/-- For all pairs of collections of five to seven distinct cards, the hands the code compares
stand as in standard poker exactly when no A-2-3-4-5 in one suit spoils it. -/
theorem hands_compare_as_usual_iff (leftHole leftBoard rightHole rightBoard : List Card)
    (leftEnough : 5 ≤ (leftHole ++ leftBoard).length) (leftFew : (leftHole ++ leftBoard).length ≤ 7)
    (leftDistinct : (leftHole ++ leftBoard).Nodup)
    (rightEnough : 5 ≤ (rightHole ++ rightBoard).length)
    (rightFew : (rightHole ++ rightBoard).length ≤ 7)
    (rightDistinct : (rightHole ++ rightBoard).Nodup) :
    ∃ mine theirs, evaluateHand leftHole leftBoard = .ok mine ∧
      evaluateHand rightHole rightBoard = .ok theirs ∧
      (ordersAlike mine theirs (leftHole ++ leftBoard) (rightHole ++ rightBoard) ↔
        wheelsHarmless (leftHole ++ leftBoard) (rightHole ++ rightBoard)) := by
  obtain ⟨mine, returnedMine, royalMine, usualMine⟩ := evaluateHand_worth leftEnough leftDistinct
  obtain ⟨theirs, returnedTheirs, royalTheirs, usualTheirs⟩ :=
    evaluateHand_worth rightEnough rightDistinct
  refine ⟨mine, theirs, returnedMine, returnedTheirs, ?_⟩
  unfold wheelsHarmless
  cases leftWheel : holdsSteelWheel (leftHole ++ leftBoard) <;>
    cases rightWheel : holdsSteelWheel (rightHole ++ rightBoard)
  case false.false =>
    have left := usualMine leftWheel
    have right := usualTheirs rightWheel
    unfold ordersAlike
    rw [handBeats_iff, handBeats_iff, handTies_iff, left, right, WithBot.coe_lt_coe,
      WithBot.coe_lt_coe, WithBot.coe_inj]
    simp
  case true.false =>
    rw [ordersAlike_of_one_wheel leftEnough leftFew rightEnough leftWheel (royalMine leftWheel)
      (usualTheirs rightWheel)]
    simp
  case false.true =>
    rw [ordersAlike_comm, ordersAlike_of_one_wheel rightEnough rightFew leftEnough rightWheel
      (royalTheirs rightWheel) (usualMine leftWheel)]
    simp
  case true.true =>
    rw [ordersAlike_of_two_wheels leftEnough leftFew rightEnough rightFew leftWheel rightWheel
      ((royalMine leftWheel).trans (royalTheirs rightWheel).symm)]
    simp

def heartsWheel : List Card :=
  [⟨14, .hearts, by decide, by decide⟩, ⟨2, .hearts, by decide, by decide⟩,
    ⟨3, .hearts, by decide, by decide⟩, ⟨4, .hearts, by decide, by decide⟩,
    ⟨5, .hearts, by decide, by decide⟩]

def spadesSixHigh : List Card :=
  [⟨2, .spades, by decide, by decide⟩, ⟨6, .spades, by decide, by decide⟩,
    ⟨3, .spades, by decide, by decide⟩, ⟨4, .spades, by decide, by decide⟩,
    ⟨5, .spades, by decide, by decide⟩]

/-- The code lets the lowest straight flush beat the next one. -/
theorem lowest_straight_flush_beats_next :
    ∃ mine theirs, evaluateHand (heartsWheel.take 2) (heartsWheel.drop 2) = .ok mine ∧
      evaluateHand (spadesSixHigh.take 2) (spadesSixHigh.drop 2) = .ok theirs ∧
      handBeats mine theirs = true ∧ best heartsWheel < best spadesSixHigh := by
  refine ⟨_, _, rfl, rfl, by decide, ?_⟩
  have low : best heartsWheel = ↑(toLex (9, [5])) :=
    (best_of_wheel (by decide) (by decide) (by decide)).2
  have high : ↑(toLex (9, [6])) ≤ best spadesSixHigh :=
    (run_le_best_iff (by decide) (by decide) (by decide)).mpr (by decide)
  rw [low]
  refine lt_of_lt_of_le ?_ high
  rw [WithBot.coe_lt_coe, Prod.Lex.toLex_lt_toLex]
  exact Or.inr ⟨rfl, by decide⟩

def dryBoard : List Card :=
  [⟨2, .clubs, by decide, by decide⟩, ⟨7, .diamonds, by decide, by decide⟩,
    ⟨9, .spades, by decide, by decide⟩, ⟨11, .hearts, by decide, by decide⟩,
    ⟨4, .diamonds, by decide, by decide⟩]

def pairOf (rank : Nat) (low : 2 ≤ rank) (high : rank ≤ 14) : List Card :=
  [⟨rank, .hearts, low, high⟩, ⟨rank, .clubs, low, high⟩]

def pairOfAces : List Card := pairOf 14 (by decide) (by decide)

def pairOfKings : List Card := pairOf 13 (by decide) (by decide)

def pairOfQueens : List Card := pairOf 12 (by decide) (by decide)

/-- Aces against kings on a dry board. -/
theorem hands_compare_as_usual_pairs :
    ∃ mine theirs, evaluateHand (pairOf 14 (by decide) (by decide)) dryBoard = .ok mine ∧
      evaluateHand (pairOf 13 (by decide) (by decide)) dryBoard = .ok theirs ∧
      ordersAlike mine theirs (pairOf 14 (by decide) (by decide) ++ dryBoard)
        (pairOf 13 (by decide) (by decide) ++ dryBoard) := by
  obtain ⟨mine, theirs, returnedMine, returnedTheirs, agree⟩ := hands_compare_as_usual_iff
    (pairOf 14 (by decide) (by decide)) dryBoard (pairOf 13 (by decide) (by decide)) dryBoard
    (by decide) (by decide) (by decide) (by decide) (by decide) (by decide)
  exact ⟨mine, theirs, returnedMine, returnedTheirs, agree.mpr (Or.inl ⟨by decide, by decide⟩)⟩

end Holdem
