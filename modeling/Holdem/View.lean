import Holdem.Betting

set_option autoImplicit false

namespace Holdem

/-- `PlayerInfo`: what one player is told about another. -/
structure PlayerInfo where
  id : Int
  chips : Int
  bet : Int
  status : String
deriving DecidableEq, Repr

structure GameState where
  yourId : Int
  phase : String
  yourCards : List String
  community : List String
  yourChips : Int
  yourBetThisRound : Int
  yourTotalBetThisHand : Int
  pot : Int
  toCall : Int
  dealerButton : Nat
  currentTurn : Nat
  players : List PlayerInfo
  actions : List String
  history : List String
deriving DecidableEq, Repr

namespace PokerGame

def getLlmGameState (game : PokerGame) (playerId : Int) : Except PyError GameState :=
  match game.getPlayer playerId with
  | none => .error (.valueError s!"Invalid player_id: {playerId}")
  | some player =>
      if player.status = .busted then
        .error (.valueError s!"Player {playerId} is busted and cannot get game state")
      else
        .ok
          { yourId := playerId
            phase := game.currentPhase.value
            yourCards := player.holeCards.map Card.str
            community := game.communityCards.map Card.str
            yourChips := player.chips
            yourBetThisRound := player.currentBet
            yourTotalBetThisHand := player.totalBetThisHand
            pot := game.pot
            toCall := game.toCall player
            dealerButton := game.dealerButton
            currentTurn := game.currentPlayerIndex
            players :=
              (game.players.filter fun other =>
                other.id != playerId && other.status != .busted).map fun other =>
                  ⟨other.id, other.chips, other.currentBet, other.status.value⟩
            actions := (game.getAvailableActions playerId).map AvailableAction.text
            history := game.actionHistory.drop (game.actionHistory.length - 20) }

end PokerGame

end Holdem
