import Holdem.Betting

set_option autoImplicit false

namespace Holdem

namespace PokerGame

/-- `deal_card` called a number of times: the cards dealt and the cards that remain. -/
def drawCards : Nat → List Card → Except PyError (List Card × List Card)
  | 0, deck => .ok ([], deck)
  | count + 1, deck =>
      match Deck.dealCard deck with
      | .error raised => .error raised
      | .ok (card, rest) =>
          match drawCards count rest with
          | .error raised => .error raised
          | .ok (drawn, remaining) => .ok (card :: drawn, remaining)

/-- The common part of `_deal_flop`, `_deal_turn` and `_deal_river`: burn a card, deal
the street's cards, and record the board. -/
def dealStreet (game : PokerGame) (count : Nat) (phase : GamePhase)
    (describe : List Card → String) : Except PyError PokerGame :=
  match Deck.dealCard game.deck with
  | .error raised => .error raised
  | .ok (_, afterBurn) =>
      match drawCards count afterBurn with
      | .error raised => .error raised
      | .ok (drawn, remaining) =>
          let board := game.communityCards ++ drawn
          .ok
            { game with
              deck := remaining
              communityCards := board
              actionHistory := game.actionHistory ++ [describe board]
              db := game.recordInHand fun handId db =>
                db.recordCommunityCards ⟨handId, phase.value, board.map Card.str⟩ }

/-- `str(self.community_cards[-1])`. -/
def lastCard (board : List Card) : String := ((board.getLast?).map Card.str).getD ""

def dealFlop (game : PokerGame) : Except PyError PokerGame :=
  game.dealStreet 3 .flop fun board => "Flop dealt: " ++ ", ".intercalate (board.map Card.str)

def dealTurn (game : PokerGame) : Except PyError PokerGame :=
  game.dealStreet 1 .turn fun board => "Turn dealt: " ++ lastCard board

def dealRiver (game : PokerGame) : Except PyError PokerGame :=
  game.dealStreet 1 .river fun board => "River dealt: " ++ lastCard board

/-- `PokerGame._start_new_betting_round`. The flag `has_bet_or_raise_this_round` is not
among the fields it resets. -/
def startNewBettingRound (game : PokerGame) : PokerGame :=
  let fresh : PokerGame :=
    { game with
      players := game.players.map Player.resetForNewBettingRound
      currentBet := 0
      bettingRoundComplete := false
      lastRaiserIndex := none }
  let active := fresh.seatsWhere fun player => player.status == .active
  match active with
  | [] => { fresh with bettingRoundComplete := true }
  | first :: _ => { fresh with currentPlayerIndex := fresh.getFirstActorForPhase.getD first }

def remainingPlayers (game : PokerGame) : List Player :=
  game.players.filter fun player => player.status.remains

/-- The phase change of `advance_to_next_phase` with several players remaining. -/
def changePhase (game : PokerGame) : Except PyError (Bool × PokerGame) :=
  match game.currentPhase with
  | .preflop =>
      (dealFlop { game with currentPhase := .flop }).map fun dealt =>
        (true, startNewBettingRound dealt)
  | .flop =>
      (dealTurn { game with currentPhase := .turn }).map fun dealt =>
        (true, startNewBettingRound dealt)
  | .turn =>
      (dealRiver { game with currentPhase := .river }).map fun dealt =>
        (true, startNewBettingRound dealt)
  | .river => .ok (true, { game with currentPhase := .showdown })
  | .showdown => .ok (false, game)
  | .finished => .ok (false, game)

/-- `PokerGame.advance_to_next_phase`: its return value and the state after it. -/
def advanceToNextPhase (game : PokerGame) : Except PyError (Bool × PokerGame) :=
  if game.bettingRoundComplete = false then .ok (false, game)
  else if game.remainingPlayers.length ≤ 1 then
    .ok (true, { game with currentPhase := .showdown })
  else game.changePhase

end PokerGame

end Holdem
