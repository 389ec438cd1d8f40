import Holdem.Cards
import Holdem.Lib.Combinations
import Holdem.Lib.Dict
import Mathlib.Data.List.Sort

set_option autoImplicit false

namespace Holdem

inductive HandRank
  | royalFlush
  | straightFlush
  | fourOfAKind
  | fullHouse
  | flush
  | straight
  | threeOfAKind
  | twoPair
  | onePair
  | highCard
deriving DecidableEq, Repr

def HandRank.value : HandRank → Nat
  | .royalFlush => 10
  | .straightFlush => 9
  | .fourOfAKind => 8
  | .fullHouse => 7
  | .flush => 6
  | .straight => 5
  | .threeOfAKind => 4
  | .twoPair => 3
  | .onePair => 2
  | .highCard => 1

structure HandResult where
  rank : HandRank
  cards : List Card
  kickers : List Nat
  description : String
deriving DecidableEq, Repr

/-- The loop of `HandResult.__lt__` over the zipped kickers. -/
def kickersLt : List Nat → List Nat → Bool
  | mine :: myRest, theirs :: theirRest =>
      if mine ≠ theirs then decide (mine < theirs) else kickersLt myRest theirRest
  | _, _ => false

def HandResult.lt (left right : HandResult) : Bool :=
  if left.rank.value ≠ right.rank.value then decide (left.rank.value < right.rank.value)
  else kickersLt left.kickers right.kickers

def HandResult.eq (left right : HandResult) : Bool :=
  left.rank == right.rank && left.kickers == right.kickers

def HandResult.str (hand : HandResult) : String :=
  hand.description ++ " - " ++ ", ".intercalate (hand.cards.map Card.str)

/-- `sorted(cards, key=lambda c: c.rank, reverse=True)`, which keeps ties in order. -/
def sortByRank (cards : List Card) : List Card :=
  cards.insertionSort fun left right => right.rank ≤ left.rank

/-- `sorted(values, reverse=True)`. -/
def sortDescending (values : List Nat) : List Nat :=
  values.insertionSort fun left right => right ≤ left

/-- `Counter(ranks)`: each rank with its count, in order of first appearance. -/
def counter (ranks : List Nat) : List (Nat × Nat) :=
  ranks.foldl (fun counts rank => Dict.set counts rank ((counts.lookup rank).getD 0 + 1)) []

/-- `[rank for rank, count in rank_counts.items() if count == wanted]`. -/
def ranksCounted (counts : List (Nat × Nat)) (wanted : Nat) : List Nat :=
  (counts.filter fun entry => entry.2 == wanted).map Prod.fst

def isStraight (ranks : List Nat) : Bool :=
  match sortDescending ranks.dedup with
  | [first, second, third, fourth, fifth] =>
      first - fifth == 4 || [first, second, third, fourth, fifth] == [14, 5, 4, 3, 2]
  | _ => false

/-- `high_card` of a straight: its first rank, or 5 for A-5-4-3-2. -/
def straightHigh (ranks : List Nat) : Nat :=
  if ranks ≠ [14, 5, 4, 3, 2] then ranks.headD 0 else 5

/-- `str(sorted_cards[0])`; the caller's list is never empty. -/
def topCard (cards : List Card) : String :=
  match cards with
  | [] => ""
  | card :: _ => card.str

/-- The body of `_evaluate_five_cards` after its length check. A list indexed with
`[0]` in the source is read with `headD`: its branch makes it non-empty. -/
def classifyFive (cards : List Card) : HandResult :=
  let sortedCards := sortByRank cards
  let ranks := sortedCards.map Card.rank
  let suits := sortedCards.map Card.suit
  let rankCounts := counter ranks
  let countValues := sortDescending (rankCounts.map Prod.snd)
  let flush := suits.dedup.length == 1
  let straight := isStraight ranks
  if flush && straight && ranks.headD 0 == 14 then
    ⟨.royalFlush, sortedCards, [14], "Royal Flush"⟩
  else if flush && straight then
    ⟨.straightFlush, sortedCards, [straightHigh ranks],
      "Straight Flush: " ++ topCard sortedCards ++ "-high"⟩
  else if countValues == [4, 1] then
    let fourRank := (ranksCounted rankCounts 4).headD 0
    let kicker := (ranksCounted rankCounts 1).headD 0
    ⟨.fourOfAKind, sortedCards, [fourRank, kicker],
      "Four of a Kind: " ++ rankName fourRank ++ "s"⟩
  else if countValues == [3, 2] then
    let threeRank := (ranksCounted rankCounts 3).headD 0
    let pairRank := (ranksCounted rankCounts 2).headD 0
    ⟨.fullHouse, sortedCards, [threeRank, pairRank],
      "Full House: " ++ rankName threeRank ++ "s over " ++ rankName pairRank ++ "s"⟩
  else if flush then
    ⟨.flush, sortedCards, ranks, "Flush: " ++ topCard sortedCards ++ "-high"⟩
  else if straight then
    ⟨.straight, sortedCards, [straightHigh ranks],
      "Straight: " ++ rankName (straightHigh ranks) ++ "-high"⟩
  else if countValues == [3, 1, 1] then
    let threeRank := (ranksCounted rankCounts 3).headD 0
    let kickers := sortDescending (ranksCounted rankCounts 1)
    ⟨.threeOfAKind, sortedCards, threeRank :: kickers,
      "Three of a Kind: " ++ rankName threeRank ++ "s"⟩
  else if countValues == [2, 2, 1] then
    let pairs := sortDescending (ranksCounted rankCounts 2)
    let kicker := (ranksCounted rankCounts 1).headD 0
    ⟨.twoPair, sortedCards, pairs ++ [kicker],
      "Two Pair: " ++ rankName (pairs.headD 0) ++ "s and " ++ rankName (pairs.tail.headD 0) ++ "s"⟩
  else if countValues == [2, 1, 1, 1] then
    let pairRank := (ranksCounted rankCounts 2).headD 0
    let kickers := sortDescending (ranksCounted rankCounts 1)
    ⟨.onePair, sortedCards, pairRank :: kickers,
      "One Pair: " ++ rankName pairRank ++ "s"⟩
  else
    ⟨.highCard, sortedCards, ranks, "High Card: " ++ topCard sortedCards⟩

def evaluateFiveCards (cards : List Card) : Except PyError HandResult :=
  if cards.length ≠ 5 then .error (.valueError "Must evaluate exactly 5 cards")
  else .ok (classifyFive cards)

def replacesBest (hand : HandResult) : Option HandResult → Bool
  | none => true
  | some best =>
      decide (hand.rank.value > best.rank.value) || (hand.rank == best.rank && !hand.lt best)

/-- The loop of `evaluate_hand` over the five-card combinations. -/
def bestOf : Option HandResult → List (List Card) → Except PyError (Option HandResult)
  | best, [] => .ok best
  | best, fiveCards :: rest =>
      match evaluateFiveCards fiveCards with
      | .error raised => .error raised
      | .ok hand => bestOf (if replacesBest hand best then some hand else best) rest

/-- The loop of `compare_hands` over the zipped kickers. -/
def compareKickers : List Nat → List Nat → Int
  | k1 :: rest1, k2 :: rest2 =>
      if k1 > k2 then 1 else if k1 < k2 then -1 else compareKickers rest1 rest2
  | _, _ => 0

def compareHands (hand1 hand2 : HandResult) : Int :=
  if hand1.rank.value > hand2.rank.value then 1
  else if hand1.rank.value < hand2.rank.value then -1
  else compareKickers hand1.kickers hand2.kickers

/-- `HandEvaluator.evaluate_hand`. With no card at all `sorted_cards[0]` raises; the
loop's result is never `None`, since five cards give at least one combination. -/
def evaluateHand (holeCards communityCards : List Card) : Except PyError HandResult :=
  let allCards := holeCards ++ communityCards
  if allCards.length < 5 then
    match sortByRank allCards with
    | [] => .error (.indexError "list index out of range")
    | first :: rest =>
        .ok ⟨.highCard, first :: rest, (first :: rest).map Card.rank, "High Card: " ++ first.str⟩
  else
    match bestOf none (Combinations.choose 5 allCards) with
    | .error raised => .error raised
    | .ok none => .error (.valueError "no combination")
    | .ok (some hand) => .ok hand

end Holdem
