import Holdem.Evaluator
import Holdem.Lib.Text
import Mathlib.Algebra.Order.Round
import Mathlib.Data.List.Lex
import Mathlib.Data.Prod.Lex
import Mathlib.Data.Rat.Floor

set_option autoImplicit false

/- The hand evaluator of the team1 agent, which reads its cards as text. -/
namespace Holdem.Team1

/-- `str.upper` and `str.lower` on one character. Unicode maps some characters to several;
none outside ASCII is mapped into the ranks or the suits. -/
structure CaseMap where
  upper : Char → List Char
  lower : Char → List Char
  upper_ascii : ∀ char, char.val < 128 → upper char = [char.toUpper]
  lower_ascii : ∀ char, char.val < 128 → lower char = [char.toLower]
  upper_other : ∀ char, 128 ≤ char.val → ∃ other ∈ upper char, other ∉ "0123456789TJQKA".toList
  lower_other : ∀ char, 128 ≤ char.val → ∃ other ∈ lower char, other ∉ "shdc".toList

/-- What the evaluator can raise. -/
inductive EvalError
  | valueError (message : String)
  | indexError (message : String)
  | keyError (key : List Char)
deriving DecidableEq, Repr

def ranks : List Char := "23456789TJQKA".toList

def suits : List Char := "shdc".toList

/-- `RANK_MAP`, whose keys are single characters. -/
def rankMap : List Char → Option Nat
  | [rank] => ranks.idxOf? rank
  | _ => none

inductive HandName
  | highCard
  | onePair
  | twoPair
  | threeOfAKind
  | straight
  | flush
  | fullHouse
  | fourOfAKind
  | straightFlush
deriving DecidableEq, Repr

def HandName.all : List HandName :=
  [.highCard, .onePair, .twoPair, .threeOfAKind, .straight, .flush, .fullHouse, .fourOfAKind,
    .straightFlush]

def HandName.text : HandName → String
  | .highCard => "HIGH_CARD"
  | .onePair => "ONE_PAIR"
  | .twoPair => "TWO_PAIR"
  | .threeOfAKind => "THREE_OF_A_KIND"
  | .straight => "STRAIGHT"
  | .flush => "FLUSH"
  | .fullHouse => "FULL_HOUSE"
  | .fourOfAKind => "FOUR_OF_A_KIND"
  | .straightFlush => "STRAIGHT_FLUSH"

def HandName.rank : HandName → Int
  | .highCard => 0
  | .onePair => 1
  | .twoPair => 2
  | .threeOfAKind => 3
  | .straight => 4
  | .flush => 5
  | .fullHouse => 6
  | .fourOfAKind => 7
  | .straightFlush => 8

def suitMap : List (Char × Char) :=
  [('♠', 's'), ('♥', 'h'), ('♦', 'd'), ('♣', 'c'), ('s', 's'), ('h', 'h'), ('d', 'd'), ('c', 'c')]

/-- A parsed card: the texts of its rank and of its suit. -/
structure ParsedCard where
  rank : List Char
  suit : List Char
deriving DecidableEq, Repr

/-- `_parse_card`. The tests against `RANKS` and `SUITS` are tests for a substring. -/
def parseCard (lib : CaseMap) (cardStr : String) : Except EvalError ParsedCard :=
  match cardStr.toList.getLast? with
  | none => .error (.indexError "string index out of range")
  | some suitStr =>
      let upper := cardStr.toList.dropLast.flatMap lib.upper
      let suit := match suitMap.lookup suitStr with
        | some suit => [suit]
        | none => lib.lower suitStr
      let rank := if upper = ['1', '0'] then ['T'] else upper
      if !Text.contains rank ranks || !Text.contains suit suits then
        .error (.valueError ("Invalid card: " ++ cardStr ++ " (rank='" ++ String.ofList rank ++
          "', suit='" ++ String.ofList suit ++ "')"))
      else .ok ⟨rank, suit⟩

/-- The tuple `(hand_rank, primary_score, secondary_score, kicker_scores)`. -/
structure Details where
  handRank : Int
  primary : Int
  secondary : Int
  kickers : List Int
deriving DecidableEq, Repr

/-- The ranks of A-5-4-3-2 as they sort. -/
def wheel : List Nat := ['A', '5', '4', '3', '2'].map fun rank => ranks.idxOf rank

/-- The same ranks with the ace last. -/
def wheelLow : List Nat := ['5', '4', '3', '2', 'A'].map fun rank => ranks.idxOf rank

/-- Each rank is one below the rank before it. -/
def isStepped (ranks : List Nat) : Bool :=
  (List.range 4).all fun i => (ranks.getD i 0 : Int) - ranks.getD (i + 1) 0 == 1

/-- `sorted(rank_counts.keys(), key=lambda k: (rank_counts[k], k), reverse=True)`. -/
def ranksByCount (rankCounts : List (Nat × Nat)) : List Nat :=
  let key (rank : Nat) : ℕ ×ₗ ℕ := toLex ((rankCounts.lookup rank).getD 0, rank)
  (rankCounts.map Prod.fst).insertionSort fun left right => key right ≤ key left

/-- `[r for r in sorted_ranks if r != rank]`, sorted. -/
def kickersBeside (sortedRanks : List Nat) (rank : Nat) : List Int :=
  (sortDescending (sortedRanks.filter fun other => other != rank)).map Int.ofNat

/-- `_get_hand_rank_and_kickers` after the ranks of five cards have been read and sorted. A
list indexed in the source is read with a default: its branch makes it long enough. -/
def rankDetails (sorted : List Nat) (suits : List (List Char)) : Details :=
  let isFlush := suits.dedup.length == 1
  let lowest := !isStepped sorted && sorted == wheel
  let isStraight := isStepped sorted || lowest
  let ranks := if lowest then wheelLow else sorted
  let rankCounts := counter ranks
  let sortedRanks := ranksByCount rankCounts
  let counts := sortDescending (rankCounts.map Prod.snd)
  let first := sortedRanks.getD 0 0
  let second := sortedRanks.getD 1 0
  let third := sortedRanks.getD 2 0
  if isStraight && isFlush then ⟨HandName.straightFlush.rank, ranks.headD 0, 0, []⟩
  else if counts.headD 0 == 4 then ⟨HandName.fourOfAKind.rank, first, second, []⟩
  else if counts == [3, 2] then ⟨HandName.fullHouse.rank, first, second, []⟩
  else if isFlush then ⟨HandName.flush.rank, 0, 0, ranks.map Int.ofNat⟩
  else if isStraight then ⟨HandName.straight.rank, ranks.headD 0, 0, []⟩
  else if counts.headD 0 == 3 then
    ⟨HandName.threeOfAKind.rank, first, 0, kickersBeside sortedRanks first⟩
  else if counts == [2, 2, 1] then
    ⟨HandName.twoPair.rank, max first second, min first second, [(third : Int)]⟩
  else if counts.headD 0 == 2 then
    ⟨HandName.onePair.rank, first, 0, kickersBeside sortedRanks first⟩
  else ⟨HandName.highCard.rank, 0, 0, ranks.map Int.ofNat⟩

def rankIndices : List ParsedCard → Except EvalError (List Nat)
  | [] => .ok []
  | card :: rest =>
      match rankMap card.rank with
      | none => .error (.keyError card.rank)
      | some index =>
          match rankIndices rest with
          | .error raised => .error raised
          | .ok indices => .ok (index :: indices)

def getHandRankAndKickers (hand : List ParsedCard) : Except EvalError Details :=
  if hand.length ≠ 5 then .error (.valueError "Hand must be 5 cards")
  else
    match rankIndices hand with
    | .error raised => .error raised
    | .ok indices => .ok (rankDetails (sortDescending indices) (hand.map ParsedCard.suit))

def Details.score (details : Details) : List Int :=
  [details.handRank, details.primary, details.secondary] ++ details.kickers

/-- A score padded to seven entries; a longer one stays as it is. -/
def padded (score : List Int) : List Int := score ++ List.replicate (7 - score.length) (-1)

/-- The best hand so far: `best_hand_rank`, `best_hand_details`, `best_hand_cards`. -/
structure Best where
  handRank : Int := -1
  details : Details := ⟨-1, -1, -1, List.replicate 5 (-1)⟩
  cards : Option (List ParsedCard) := none

def bestCombination : Best → List (List ParsedCard) → Except EvalError Best
  | best, [] => .ok best
  | best, hand :: rest =>
      match getHandRankAndKickers hand with
      | .error (.valueError _) => bestCombination best rest
      | .error raised => .error raised
      | .ok details =>
          if padded best.details.score < padded details.score then
            bestCombination ⟨details.handRank, details, some hand⟩ rest
          else bestCombination best rest

/-- The highest rank on the board, zero when the board is empty or a rank is unknown. -/
def maxCommunityRank (community : List ParsedCard) : Int :=
  match rankIndices community with
  | .ok (first :: rest) => (rest.foldl max first : Nat)
  | _ => 0

def isPocketPair : List ParsedCard → Bool
  | first :: second :: _ => first.rank == second.rank
  | _ => false

/-- `base_score` of `_calculate_strength_score`, with exact fractions in place of floats. -/
def baseScore (handName : HandName) (details : Details) (hole community : List ParsedCard) :
    Except EvalError ℚ :=
  let share (rank : Int) : ℚ := rank / 12
  let top := details.primary
  match handName with
  | .straightFlush => .ok (98 + share top * (199 / 100))
  | .fourOfAKind => .ok (96 + share top * (199 / 100))
  | .fullHouse => .ok (94 + share top * (199 / 100))
  | .flush =>
      let flushRankScore := (details.kickers.zipIdx.map fun (kicker, i) =>
        (kicker : ℚ) / (13 * (i + 1))).sum
      .ok (92 + flushRankScore * (199 / 100))
  | .straight => .ok (90 + share top * (199 / 100))
  | .threeOfAKind => .ok 90
  | .twoPair =>
      match details.kickers with
      | [] => .error (.indexError "list index out of range")
      | kicker :: _ => .ok (80 + share top * 5 + share details.secondary * 3 + share kicker * 1)
  | .onePair =>
      let highest := maxCommunityRank community
      let kickerRank := details.kickers.headD 0
      if isPocketPair hole && decide (highest < top) then .ok (75 + share top * 10)
      else if top = highest then
        if ranks.idxOf 'Q' ≤ kickerRank then .ok (70 + share kickerRank * 15)
        else .ok (60 + share kickerRank * 10)
      else .ok (30 + share top * 10 + share kickerRank * 5)
  | .highCard => .ok (0 + share (details.kickers.headD 0) * 25)

/-- `round(score, 2)`, which rounds a half to the even neighbour. -/
def roundHundredths (score : ℚ) : ℚ :=
  let low := ⌊score * 100⌋
  let rest := score * 100 - low
  let nearest := if rest < 1 / 2 ∨ (rest = 1 / 2 ∧ low % 2 = 0) then low else low + 1
  nearest / 100

def calculateStrengthScore (handName : HandName) (details : Details)
    (hole community : List ParsedCard) : Except EvalError ℚ :=
  if handName = .straightFlush ∧ details.primary = ranks.idxOf 'A' then .ok 100
  else
    match baseScore handName details hole community with
    | .error raised => .error raised
    | .ok score => .ok (roundHundredths (min score 100))

/-- The dictionary `evaluate_hand` returns: an error, or the best hand. -/
inductive Reply
  | error (message : String)
  | hand (handName : String) (handRank : Int) (best5Cards : List (List Char))
      (strengthScore : ℚ) (details : Details)
deriving DecidableEq

def parseCards (lib : CaseMap) : List String → Except EvalError (List ParsedCard)
  | [] => .ok []
  | card :: rest =>
      match parseCard lib card with
      | .error raised => .error raised
      | .ok parsed =>
          match parseCards lib rest with
          | .error raised => .error raised
          | .ok others => .ok (parsed :: others)

/-- `evaluate_hand` once its cards are parsed. -/
def evaluateParsed (hole community : List ParsedCard) : Except EvalError Reply :=
  match bestCombination {} (Combinations.choose 5 (hole ++ community)) with
  | .error raised => .error raised
  | .ok best =>
      match best.cards with
      | none => .ok (.error "Could not determine best hand.")
      | some cards =>
          match HandName.all.find? fun name => name.rank == best.handRank with
          | none => .error (.indexError "list index out of range")
          | some name =>
              match calculateStrengthScore name best.details hole community with
              | .error raised => .error raised
              | .ok score =>
                  .ok (.hand name.text best.handRank
                    (cards.map fun card => card.rank ++ card.suit) score best.details)

/-- `evaluate_hand`. Only the `ValueError` of a card that does not parse is caught. -/
def evaluateHand (lib : CaseMap) (holeCards communityCards : List String) :
    Except EvalError Reply :=
  if holeCards.length ≠ 2 then .ok (.error "Hole cards must be a list of 2 strings.")
  else if ¬ (3 ≤ communityCards.length ∧ communityCards.length ≤ 5) then
    .ok (.error "Community cards must be a list of 3 to 5 strings.")
  else
    match parseCards lib holeCards, parseCards lib communityCards with
    | .ok hole, .ok community => evaluateParsed hole community
    | .error (.valueError message), _ => .ok (.error message)
    | .error raised, _ => .error raised
    | .ok _, .error (.valueError message) => .ok (.error message)
    | .ok _, .error raised => .error raised

end Holdem.Team1
