import Holdem.Game
import Holdem.Lib.Clockwise

set_option autoImplicit false

namespace Holdem

/-- The action strings `process_player_action` compares with; any other string is
carried as it came. -/
inductive Action
  | fold
  | check
  | call
  | raise
  | allIn
  | unknown (text : String)
deriving DecidableEq, Repr

def Action.text : Action → String
  | .fold => "fold"
  | .check => "check"
  | .call => "call"
  | .raise => "raise"
  | .allIn => "all_in"
  | .unknown text => text

/-- What `make_decision` returns. -/
structure Decision where
  action : Action
  amount : Int
deriving DecidableEq, Repr

inductive AvailableAction
  | fold
  | check
  | call (toCall : Int)
  | raise (minimum : Int)
  | allIn (chips : Int)
deriving DecidableEq, Repr

/-- The string of an entry, as agents receive it. -/
def AvailableAction.text : AvailableAction → String
  | .fold => "fold"
  | .check => "check"
  | .call toCall => s!"call ({toCall})"
  | .raise minimum => s!"raise (min {minimum})"
  | .allIn chips => s!"all-in ({chips})"

/-- What an accepted action changes, before the turn moves on. -/
structure Performed where
  player : Player
  paid : Int
  currentBet : Int
  lastRaiserIndex : Option Nat
  hasBetOrRaiseThisRound : Bool
  description : String

namespace PokerGame

def toCall (game : PokerGame) (player : Player) : Int :=
  max 0 (game.currentBet - player.currentBet)

def bigBlindIndex (game : PokerGame) : Option Nat :=
  game.players.findIdx? fun player => player.isBigBlind

/-- `is_big_blind_option`: unraised before the flop, with nothing left to call. -/
def isBigBlindOption (game : PokerGame) (player : Player) (playerId : Int) : Bool :=
  if game.currentPhase = .preflop ∧ game.hasBetOrRaiseThisRound = false ∧
      game.toCall player = 0 ∧ game.currentBet = game.bigBlind then
    match game.bigBlindIndex with
    | none => false
    | some seat => playerId == seat
  else false

def mayRaise (game : PokerGame) (player : Player) (playerId : Int) : Bool :=
  game.currentBet == 0 || decide (game.toCall player > 0) || game.isBigBlindOption player playerId

def minRaiseTotal (game : PokerGame) : Int :=
  if game.currentBet = 0 then game.bigBlind else game.currentBet + game.bigBlind

def getAvailableActions (game : PokerGame) (playerId : Int) : List AvailableAction :=
  match game.getPlayer playerId with
  | none => []
  | some player =>
      if player.status ≠ .active then []
      else
        let toCall := game.toCall player
        let mayRaise := game.mayRaise player playerId
        [.fold] ++
          (if toCall = 0 then [.check] else []) ++
          (if toCall > 0 ∧ player.chips ≥ toCall then [.call toCall] else []) ++
          (if mayRaise ∧ player.chips ≥ game.minRaiseTotal ∧ toCall < player.chips then
            [.raise game.minRaiseTotal] else []) ++
          (if player.chips > 0 then
            if mayRaise then [.allIn player.chips]
            else if toCall > 0 ∧ player.chips < toCall then [.allIn player.chips]
            else []
          else [])

/-- The branches of `process_player_action` for the player whose turn it is. `none`
is a rejected action. -/
def performAction (game : PokerGame) (player : Player) (playerId : Int) (action : Action)
    (amount : Int) : Option Performed :=
  match action with
  | .fold =>
      some ⟨player.fold, 0, game.currentBet, game.lastRaiserIndex, game.hasBetOrRaiseThisRound,
        s!"Player {playerId} folded"⟩
  | .check =>
      if game.currentBet > player.currentBet then none
      else
        some ⟨player, 0, game.currentBet, game.lastRaiserIndex, game.hasBetOrRaiseThisRound,
          s!"Player {playerId} checked"⟩
  | .call =>
      let toCall := game.currentBet - player.currentBet
      if toCall ≤ 0 then
        some ⟨player, 0, game.currentBet, game.lastRaiserIndex, game.hasBetOrRaiseThisRound,
          s!"Player {playerId} checked"⟩
      else if player.chips < toCall then none
      else
        let actualCall := (player.bet toCall).1
        some ⟨(player.bet toCall).2, actualCall, game.currentBet, game.lastRaiserIndex,
          game.hasBetOrRaiseThisRound, s!"Player {playerId} called {actualCall}"⟩
  | .raise =>
      let totalNeeded := game.currentBet - player.currentBet + amount
      if player.chips < totalNeeded then none
      else
        let currentBet := (player.bet totalNeeded).2.currentBet
        some ⟨(player.bet totalNeeded).2, (player.bet totalNeeded).1, currentBet,
          some playerId.toNat, true, s!"Player {playerId} raised to {currentBet}"⟩
  | .allIn =>
      if player.chips ≤ 0 then none
      else
        let actualBet := (player.bet player.chips).1
        let after := { (player.bet player.chips).2 with status := .allIn }
        -- only an all-in above the current bet counts as a raise
        if after.currentBet > game.currentBet then
          some ⟨after, actualBet, after.currentBet, some playerId.toNat, true,
            s!"Player {playerId} went all-in with {actualBet}"⟩
        else
          some ⟨after, actualBet, game.currentBet, game.lastRaiserIndex,
            game.hasBetOrRaiseThisRound, s!"Player {playerId} went all-in with {actualBet}"⟩
  | .unknown _ => none

def putPlayer : List Player → Player → List Player
  | [], _ => []
  | other :: rest, player =>
      if other.id = player.id then player :: rest else other :: putPlayer rest player

/-- The `amount` argument of `record_action`, computed after the action was applied. -/
def recordedAmount (done : Performed) (action : Action) (amount : Int) : Int :=
  match action with
  | .raise => amount
  | .allIn => amount
  | .call => done.currentBet - (done.player.currentBet - amount)
  | _ => 0

def commitAction (game : PokerGame) (done : Performed) (playerId : Int) (action : Action)
    (amount : Int) : PokerGame :=
  { game with
    players := putPlayer game.players done.player
    pot := game.pot + done.paid
    currentBet := done.currentBet
    lastRaiserIndex := done.lastRaiserIndex
    hasBetOrRaiseThisRound := done.hasBetOrRaiseThisRound
    actionHistory := game.actionHistory ++ [done.description]
    db := game.recordInHand fun handId db =>
      db.recordAction ⟨handId, game.currentPhase.value, playerId, action.text,
        recordedAmount done action amount, game.pot + done.paid⟩ }

def advanceToNextPlayer (game : PokerGame) : PokerGame :=
  let total := game.players.length
  match Clockwise.search total game.isActive game.currentPlayerIndex total with
  | some seat => { game with currentPlayerIndex := seat }
  | none => { game with bettingRoundComplete := true }

/-- `PokerGame._get_next_active_player_from`; the seat itself is not tried. -/
def getNextActivePlayerFrom (game : PokerGame) (seat : Nat) : Option Nat :=
  Clockwise.search game.players.length game.isActive seat (game.players.length - 1)

/-- `PokerGame._get_first_actor_for_phase`: after the big blind before the flop, after
the dealer later, else the first `ACTIVE` seat. -/
def getFirstActorForPhase (game : PokerGame) : Option Nat :=
  let firstActive := (game.seatsWhere fun player => player.status == .active).head?
  let base := if game.currentPhase = .preflop then game.bigBlindIndex else some game.dealerButton
  match base.bind game.getNextActivePlayerFrom with
  | some seat => some seat
  | none => firstActive

/-- The condition under which `_check_betting_round_complete` closes the round. -/
def roundIsOver (game : PokerGame) : Bool :=
  let active := game.players.filter fun player => player.status == .active
  let allIn := game.players.filter fun player => player.status == .allIn
  if active.length + allIn.length ≤ 1 then true
  else
    match active with
    | [] => true
    | [single] => !decide (single.currentBet < game.currentBet)
    | _ =>
        if !active.all fun player => player.currentBet == game.currentBet then false
        else if game.lastRaiserIndex.isSome && game.hasBetOrRaiseThisRound then true
        else
          match game.lastRaiserIndex with
          | none => some game.currentPlayerIndex == game.getFirstActorForPhase
          | some raiser =>
              if !game.isActive raiser then true
              else some game.currentPlayerIndex == game.getNextActivePlayerFrom raiser

def checkBettingRoundComplete (game : PokerGame) : PokerGame :=
  if game.roundIsOver then { game with bettingRoundComplete := true } else game

/-- `PokerGame.process_player_action`: whether the action was accepted, and the state
after it. A rejected action changes nothing. -/
def processPlayerAction (game : PokerGame) (playerId : Int) (action : Action) (amount : Int) :
    Bool × PokerGame :=
  if playerId ≠ game.currentPlayerIndex then (false, game)
  else
    match game.getPlayer playerId with
    | none => (false, game)
    | some player =>
        if player.status ≠ .active then (false, game)
        else
          match game.performAction player playerId action amount with
          | none => (false, game)
          | some done =>
              (true, (game.commitAction done playerId action amount).advanceToNextPlayer
                |>.checkBettingRoundComplete)

end PokerGame

end Holdem
