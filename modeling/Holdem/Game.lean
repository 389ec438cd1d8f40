import Holdem.Player
import Holdem.History
import Mathlib.Data.List.Basic

set_option autoImplicit false

namespace Holdem

inductive GamePhase
  | preflop
  | flop
  | turn
  | river
  | showdown
  | finished
deriving DecidableEq, Repr

def GamePhase.value : GamePhase → String
  | .preflop => "preflop"
  | .flop => "flop"
  | .turn => "turn"
  | .river => "river"
  | .showdown => "showdown"
  | .finished => "finished"

/-- An entry of `results` in the dictionary `conduct_showdown` returns. -/
structure Award where
  playerId : Int
  hand : String
  winnings : Int
deriving DecidableEq, Repr

structure ShownHand where
  playerId : Int
  hand : String
  cards : List String
deriving DecidableEq, Repr

/-- The dictionary `conduct_showdown` returns; an uncontested hand has no `all_hands`. -/
structure ShowdownResult where
  winners : List Int
  results : List Award
  allHands : Option (List ShownHand)
deriving DecidableEq, Repr

/-- The state of `PokerGame`. A seat is an index into `players`. The deck holds its
top card first; the order before the first `start_new_hand` is never dealt from. -/
structure PokerGame where
  smallBlind : Int
  bigBlind : Int
  players : List Player
  dealerButton : Nat := 0
  currentPlayerIndex : Nat := 0
  deck : List Card := Deck.standard
  communityCards : List Card := []
  currentPhase : GamePhase := .preflop
  pot : Int := 0
  currentBet : Int := 0
  handNumber : Nat := 0
  bettingRoundComplete : Bool := false
  lastRaiserIndex : Option Nat := none
  hasBetOrRaiseThisRound : Bool := false
  actionHistory : List String := []
  lastShowdownResults : Option ShowdownResult := none
  db : GameHistoryDB := {}
  currentHandId : Option Nat := none

namespace PokerGame

/-- `PokerGame.get_player`: the first player with the id. -/
def getPlayer (game : PokerGame) (playerId : Int) : Option Player :=
  game.players.find? fun player => player.id == playerId

/-- `[i for i, p in enumerate(self.players) if ...]`. -/
def seatsWhere (game : PokerGame) (test : Player → Bool) : List Nat :=
  (List.range game.players.length).filter fun seat => (game.players[seat]?).any test

def survivorSeats (game : PokerGame) : List Nat :=
  game.seatsWhere fun player => player.status != .busted

def isActive (game : PokerGame) (seat : Nat) : Bool :=
  (game.players[seat]?).any fun player => player.status == .active

/-- `if self.current_hand_id is not None:` around a write to the history tables. -/
def recordInHand (game : PokerGame) (write : Nat → GameHistoryDB → GameHistoryDB) :
    GameHistoryDB :=
  match game.currentHandId with
  | none => game.db
  | some handId => write handId game.db

/-- The assignments at the top of `start_new_hand`, players included. -/
def resetForHand (game : PokerGame) (shuffle : Shuffle) : PokerGame :=
  { game with
    handNumber := game.handNumber + 1
    deck := shuffle.cards
    communityCards := []
    currentPhase := .preflop
    pot := 0
    currentBet := 0
    bettingRoundComplete := false
    lastRaiserIndex := none
    hasBetOrRaiseThisRound := false
    lastShowdownResults := none
    players := game.players.map Player.resetForNewHand }

def moveDealerButton (game : PokerGame) : PokerGame :=
  let active := game.survivorSeats
  if active.isEmpty then game
  else
    let button :=
      if game.dealerButton ∉ active then active.headD 0
      else active.getD ((active.idxOf game.dealerButton + 1) % active.length) 0
    { game with
      dealerButton := button
      players := game.players.mapIdx fun seat player => { player with isDealer := seat == button } }

/-- The seats `_post_blinds` charges: small blind first, then big blind. -/
def blindSeats (game : PokerGame) : Nat × Nat :=
  let active := game.survivorSeats
  let dealerPos := active.idxOf game.dealerButton
  if active.length = 2 then (game.dealerButton, active.getD (1 - dealerPos) 0)
  else
    (active.getD ((dealerPos + 1) % active.length) 0,
      active.getD ((dealerPos + 2) % active.length) 0)

/-- One blind of `_post_blinds`: mark the seat, bet, and record what was posted. -/
def postBlind (game : PokerGame) (seat : Nat) (blind : Int) (mark : Player → Player)
    (name actionType : String) : Int × PokerGame :=
  match game.players[seat]? with
  | none => (0, game)
  | some player =>
      let paid := ((mark player).bet blind).1
      let pot := game.pot + paid
      (paid,
        { game with
          players := game.players.set seat ((mark player).bet blind).2
          pot := pot
          actionHistory := game.actionHistory ++ [s!"Player {seat} posted {name} {paid}"]
          db := game.recordInHand fun handId db =>
            db.recordAction ⟨handId, "preflop", player.id, actionType, paid, pot⟩ })

/-- `PokerGame._post_blinds`. The current bet is what the big blind posted, also when
the small blind posted more. -/
def postBlinds (game : PokerGame) : PokerGame :=
  if game.survivorSeats.length < 2 then game
  else
    let seats := game.blindSeats
    let small := game.postBlind seats.1 game.smallBlind
      (fun player => { player with isSmallBlind := true }) "small blind" "small_blind"
    let big := small.2.postBlind seats.2 game.bigBlind
      (fun player => { player with isBigBlind := true }) "big blind" "big_blind"
    { big.2 with currentBet := big.1, lastRaiserIndex := some seats.2 }

/-- One pass of `_deal_hole_cards` over the players. -/
def dealRound : List Player → List Card → Except PyError (List Player × List Card)
  | [], deck => .ok ([], deck)
  | player :: rest, deck =>
      if player.status = .busted then
        match dealRound rest deck with
        | .error raised => .error raised
        | .ok (dealt, remaining) => .ok (player :: dealt, remaining)
      else
        match Deck.dealCard deck with
        | .error raised => .error raised
        | .ok (card, deck) =>
            match player.addHoleCard card with
            | .error raised => .error raised
            | .ok player =>
                match dealRound rest deck with
                | .error raised => .error raised
                | .ok (dealt, remaining) => .ok (player :: dealt, remaining)

/-- `PokerGame._deal_hole_cards`: two passes. -/
def dealHoleCards (game : PokerGame) : Except PyError PokerGame :=
  match dealRound game.players game.deck with
  | .error raised => .error raised
  | .ok (players, deck) =>
      match dealRound players deck with
      | .error raised => .error raised
      | .ok (players, deck) => .ok { game with players := players, deck := deck }

def setFirstActorPreflop (game : PokerGame) : PokerGame :=
  let active := game.seatsWhere fun player => player.status != .busted && player.status != .folded
  if active.length < 2 then { game with bettingRoundComplete := true }
  else if game.dealerButton ∉ active then { game with currentPlayerIndex := active.headD 0 }
  else if active.length = 2 then { game with currentPlayerIndex := game.dealerButton }
  else
    { game with
      currentPlayerIndex :=
        active.getD ((active.idxOf game.dealerButton + 3) % active.length) 0 }

/-- The end of `start_new_hand`: the hand's row, whose id later rows carry. -/
def recordHand (game : PokerGame) : PokerGame :=
  let playerIds := (game.players.filter fun player => player.status != .busted).map Player.id
  let dealerId := ((game.players[game.dealerButton]?).map Player.id).getD 0
  let opened := game.db.startNewHand game.smallBlind game.bigBlind dealerId playerIds
  { game with db := opened.2, currentHandId := some opened.1 }

/-- `PokerGame.start_new_hand`, with the order `random.shuffle` leaves the deck in. -/
def startNewHand (game : PokerGame) (shuffle : Shuffle) : Except PyError PokerGame :=
  let fresh := game.resetForHand shuffle
  if fresh.survivorSeats.length < 2 then .ok { fresh with currentPhase := .finished }
  else
    match fresh.moveDealerButton.postBlinds.dealHoleCards with
    | .error raised => .error raised
    | .ok dealt => .ok dealt.setFirstActorPreflop.recordHand

def isGameOver (game : PokerGame) : Bool :=
  decide ((game.players.filter fun player => decide (player.chips > 0)).length ≤ 1)

end PokerGame

end Holdem
