import Holdem.Phases
import Holdem.Evaluator

set_option autoImplicit false

namespace Holdem

/-- A layer of the pot: its amount and the ids of the players who paid into it. -/
structure PotLayer where
  amount : Int
  contributors : List Int
deriving DecidableEq, Repr

structure PlayerHand where
  player : Player
  hand : HandResult

/-- The running totals of the loop over the pot layers. -/
structure Distribution where
  layerIdx : Nat
  winningsMap : List (Int × Int)
  totalAwarded : Int
  lines : List String

/-- `sorted(set(contrib_map.values()))`. -/
def uniqueLevels (contribMap : List (Int × Int)) : List Int :=
  (contribMap.map Prod.snd).dedup.insertionSort fun left right => left ≤ right

/-- The contributors who paid at least a level. -/
def contributorsAt (contribMap : List (Int × Int)) (level : Int) : List Int :=
  (contribMap.filter fun entry => decide (level ≤ entry.2)).map Prod.fst

/-- The loop of `build_pot_layers` over the levels left, from the level before them. -/
def potLayersFrom (contribMap : List (Int × Int)) : Int → List Int → List PotLayer
  | _, [] => []
  | prev, level :: rest =>
      if level - prev ≤ 0 then potLayersFrom contribMap level rest
      else
        let eligible := contributorsAt contribMap level
        ⟨(level - prev) * eligible.length, eligible⟩ :: potLayersFrom contribMap level rest

def buildPotLayers (contribMap : List (Int × Int)) : List PotLayer :=
  potLayersFrom contribMap 0 (uniqueLevels contribMap)

/-- The comparison inside `determine_winner_ids`: rank value, then Python list order. -/
def handBeats (hand best : HandResult) : Bool :=
  decide (hand.rank.value > best.rank.value) ||
    (hand.rank.value == best.rank.value && decide (best.kickers < hand.kickers))

def handTies (hand best : HandResult) : Bool :=
  hand.rank.value == best.rank.value && hand.kickers == best.kickers

/-- One step of `determine_winner_ids`. -/
def considerWinner (handsById : List (Int × HandResult))
    (state : List Int × Option HandResult) (playerId : Int) : List Int × Option HandResult :=
  match handsById.lookup playerId with
  | none => state
  | some hand =>
      match state.2 with
      | none => ([playerId], some hand)
      | some best =>
          if handBeats hand best then ([playerId], some hand)
          else if handTies hand best then (state.1 ++ [playerId], some best)
          else state

def determineWinnerIds (handsById : List (Int × HandResult)) (eligibleIds : List Int) :
    List Int × Option HandResult :=
  eligibleIds.foldl (considerWinner handsById) ([], none)

/-- The share of the winner at a position: the first `remainder` get one chip more. -/
def shareAt (amount : Int) (winners position : Nat) : Int :=
  amount / winners + if (position : Int) < amount % winners then 1 else 0

def payShares (amount : Int) (winners : Nat) :
    Nat → List Int → List (Int × Int) × Int → List (Int × Int) × Int
  | _, [], paid => paid
  | position, playerId :: rest, (winningsMap, totalAwarded) =>
      let share := shareAt amount winners position
      payShares amount winners (position + 1) rest
        (Dict.set winningsMap playerId ((winningsMap.lookup playerId).getD 0 + share),
          totalAwarded + share)

def layerLine (layerIdx : Nat) (amount : Int) (winnerIds : List Int)
    (bestHand : Option HandResult) : String :=
  "Side pot layer " ++ toString layerIdx ++ ": amount=" ++ toString amount ++ ", winners=" ++
    ", ".intercalate (winnerIds.map toString) ++
    match bestHand with
    | none => ""
    | some hand => " best_hand=" ++ hand.str

/-- One turn of the loop over the pot layers. A layer none of whose contributors is at
the showdown is skipped. -/
def distributeLayer (handsById : List (Int × HandResult)) (showdownIds : List Int)
    (state : Distribution) (layer : PotLayer) : Distribution :=
  let eligibleIds := layer.contributors.filter fun playerId => decide (playerId ∈ showdownIds)
  if eligibleIds.isEmpty then { state with layerIdx := state.layerIdx + 1 }
  else
    let decided := determineWinnerIds handsById eligibleIds
    let winnerIds := decided.1.insertionSort fun left right => left ≤ right
    let paid := payShares layer.amount winnerIds.length 0 winnerIds
      (state.winningsMap, state.totalAwarded)
    ⟨state.layerIdx + 1, paid.1, paid.2,
      state.lines ++ [layerLine state.layerIdx layer.amount winnerIds decided.2]⟩

def distributeLayers (handsById : List (Int × HandResult)) (showdownIds : List Int)
    (layers : List PotLayer) : Distribution :=
  layers.foldl (distributeLayer handsById showdownIds) ⟨0, [], 0, []⟩

/-- `sorted(winnings_map.items())`. -/
def sortedItems (winningsMap : List (Int × Int)) : List (Int × Int) :=
  winningsMap.insertionSort fun left right =>
    left.1 < right.1 ∨ (left.1 = right.1 ∧ left.2 ≤ right.2)

namespace PokerGame

/-- The contributions of all players, folded ones included, without the zeros. -/
def contributions (game : PokerGame) : List (Int × Int) :=
  (Dict.ofPairs (game.players.map fun player =>
    (player.id, max 0 player.totalBetThisHand))).filter fun entry => decide (entry.2 > 0)

def evaluatePlayers (communityCards : List Card) :
    List Player → Except PyError (List PlayerHand)
  | [] => .ok []
  | player :: rest =>
      match evaluateHand player.holeCards communityCards with
      | .error raised => .error raised
      | .ok hand =>
          match evaluatePlayers communityCards rest with
          | .error raised => .error raised
          | .ok hands => .ok (⟨player, hand⟩ :: hands)

def showdownLine (shown : PlayerHand) : String :=
  "Showdown: Player " ++ toString shown.player.id ++ " hand=" ++ shown.hand.str ++ " cards=" ++
    ", ".intercalate (shown.player.holeCards.map Card.str)

/-- `player.chips += amount` for the player `get_player` finds. -/
def creditPlayer (players : List Player) (playerId amount : Int) : List Player :=
  match players.find? fun player => player.id == playerId with
  | none => players
  | some player => putPlayer players { player with chips := player.chips + amount }

def creditAll (players : List Player) (items : List (Int × Int)) : List Player :=
  items.foldl (fun players item => creditPlayer players item.1 item.2) players

def recordShowdowns (db : GameHistoryDB) (handId : Nat) (winningsMap : List (Int × Int))
    (hands : List PlayerHand) : GameHistoryDB :=
  hands.foldl (fun db shown =>
    db.recordShowdown handId shown.player.id (shown.player.holeCards.map Card.str) shown.hand.str
      ((winningsMap.lookup shown.player.id).getD 0)) db

def contestedShowdown (game : PokerGame) (hands : List PlayerHand) : PokerGame × ShowdownResult :=
  let handsById := Dict.ofPairs (hands.map fun shown => (shown.player.id, shown.hand))
  let showdownIds := game.remainingPlayers.map Player.id
  let paid := distributeLayers handsById showdownIds (buildPotLayers game.contributions)
  let items := sortedItems paid.winningsMap
  let result : ShowdownResult :=
    { winners := (determineWinnerIds handsById (handsById.map Prod.fst)).1
      results := (items.filter fun item => (game.getPlayer item.1).isSome).map fun item =>
        ⟨item.1, ((handsById.lookup item.1).map HandResult.str).getD "None", item.2⟩
      allHands := some (hands.map fun shown =>
        ⟨shown.player.id, shown.hand.str, shown.player.holeCards.map Card.str⟩) }
  ({ game with
      players := creditAll game.players items
      pot := max 0 (game.pot - paid.totalAwarded)
      actionHistory := game.actionHistory ++ hands.map showdownLine ++ paid.lines
      lastShowdownResults := some result
      db := game.recordInHand fun handId db =>
        (recordShowdowns db handId paid.winningsMap hands).endHand handId },
    result)

/-- `PokerGame.conduct_showdown`. An uncontested win credits the whole pot and leaves
`pot` and the history tables as they are. -/
def conductShowdown (game : PokerGame) : Except PyError (PokerGame × ShowdownResult) :=
  match game.remainingPlayers with
  | [] =>
      let result : ShowdownResult := ⟨[], [], none⟩
      .ok ({ game with
          lastShowdownResults := some result
          actionHistory := game.actionHistory ++ ["Showdown: no remaining players"] }, result)
  | [winner] =>
      let result : ShowdownResult :=
        ⟨[winner.id], [⟨winner.id, "Won by default", game.pot⟩], none⟩
      .ok ({ game with
          players := game.players.map fun player =>
            if player.status.remains then { player with chips := player.chips + game.pot }
            else player
          lastShowdownResults := some result
          actionHistory :=
            game.actionHistory ++ [s!"Showdown: Player {winner.id} won {game.pot}"] }, result)
  | first :: second :: rest =>
      match evaluatePlayers game.communityCards (first :: second :: rest) with
      | .error raised => .error raised
      | .ok hands => .ok (game.contestedShowdown hands)

end PokerGame

end Holdem
