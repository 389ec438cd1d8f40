import Holdem.Showdown
import Holdem.Lib.Runs

set_option autoImplicit false

namespace Holdem

/-- The calls the drivers and the user interfaces make on a `PokerGame`. -/
inductive Call
  | startNewHand (shuffle : Shuffle)
  | processPlayerAction (playerId : Int) (action : Action) (amount : Int)
  | advanceToNextPlayer
  | advanceToNextPhase
  | conductShowdown

inductive CallResult
  | nothing
  | accepted (ok : Bool)
  | showdown (result : ShowdownResult)
deriving DecidableEq, Repr

namespace PokerGame

/-- One call: its return value and the state after it, or the exception it raises. -/
def perform (game : PokerGame) : Call → Except PyError (CallResult × PokerGame)
  | .startNewHand shuffle => (game.startNewHand shuffle).map fun next => (.nothing, next)
  | .processPlayerAction playerId action amount =>
      let done := game.processPlayerAction playerId action amount
      .ok (.accepted done.1, done.2)
  | .advanceToNextPlayer => .ok (.nothing, game.advanceToNextPlayer)
  | .advanceToNextPhase =>
      game.advanceToNextPhase.map fun moved => (.accepted moved.1, moved.2)
  | .conductShowdown =>
      game.conductShowdown.map fun settled => (.showdown settled.2, settled.1)

def callStep (game : PokerGame) (call : Call) : Option PokerGame :=
  match game.perform call with
  | .error _ => none
  | .ok (_, next) => some next

def performAll : PokerGame → List Call → Except PyError (List CallResult × PokerGame)
  | game, [] => .ok ([], game)
  | game, call :: rest =>
      match game.perform call with
      | .error raised => .error raised
      | .ok (result, next) =>
          match next.performAll rest with
          | .error raised => .error raised
          | .ok (results, final) => .ok (result :: results, final)

end PokerGame

/-- A table as the drivers set it up: two to ten players whose id is their seat, all
with chips, and a button on one of the seats. -/
structure Table where
  smallBlind : Int
  bigBlind : Int
  chips : List Int
  button : Nat
  seats_ge : 2 ≤ chips.length
  seats_le : chips.length ≤ 10
  chips_pos : ∀ stack ∈ chips, 0 < stack
  button_lt : button < chips.length

def Table.game (table : Table) : PokerGame :=
  { smallBlind := table.smallBlind
    bigBlind := table.bigBlind
    players := table.chips.mapIdx fun seat stack => { id := seat, chips := stack }
    dealerButton := table.button }

inductive Stage
  | betweenHands
  | inHand
  | stopped
deriving DecidableEq, Repr

structure DriverState where
  stage : Stage
  game : PokerGame

/-- What a driver does next: open a hand, skip a seat that cannot act, pass a decision
on, move to the next phase, or run the showdown. -/
inductive DriverEvent
  | newHand (shuffle : Shuffle)
  | skip
  | decide (decision : Decision)
  | nextPhase
  | showdown

/-- A decision passed to `process_player_action`; a rejected one becomes a fold. -/
def PokerGame.decideOrFold (game : PokerGame) (playerId : Int) (decision : Decision) :
    PokerGame :=
  let done := game.processPlayerAction playerId decision.action decision.amount
  if done.1 then done.2 else (done.2.processPlayerAction playerId .fold 0).2

/-- The loop condition `current_phase not in [SHOWDOWN, FINISHED]`. -/
def GamePhase.playing (phase : GamePhase) : Bool := phase != .showdown && phase != .finished

/-- The hand loop that `run_cpu_only_game` and `run_agent_only_mode` share. `none` means
the loop does not take this step here. -/
def driverStep (state : DriverState) (event : DriverEvent) : Option DriverState :=
  match state.stage, event with
  | .betweenHands, .newHand shuffle =>
      if state.game.isGameOver then none
      else
        match state.game.startNewHand shuffle with
        | .error _ => none
        | .ok next =>
            some ⟨if next.currentPhase = .finished then .stopped else .inHand, next⟩
  | .inHand, .skip =>
      if state.game.currentPhase.playing && !state.game.bettingRoundComplete &&
          !state.game.isActive state.game.currentPlayerIndex then
        some ⟨.inHand, state.game.advanceToNextPlayer⟩
      else none
  | .inHand, .decide decision =>
      if state.game.currentPhase.playing && !state.game.bettingRoundComplete then
        match state.game.players[state.game.currentPlayerIndex]? with
        | none => none
        | some player =>
            if player.status = .active then
              some ⟨.inHand, state.game.decideOrFold player.id decision⟩
            else none
      else none
  | .inHand, .nextPhase =>
      if state.game.currentPhase.playing && state.game.bettingRoundComplete then
        match state.game.advanceToNextPhase with
        | .error _ => none
        | .ok (moved, next) => some ⟨if moved then .inHand else .betweenHands, next⟩
      else none
  | .inHand, .showdown =>
      if state.game.currentPhase = .showdown then
        match state.game.conductShowdown with
        | .error _ => none
        | .ok (next, _) => some ⟨.betweenHands, next⟩
      else none
  | _, _ => none

def Table.start (table : Table) : DriverState := ⟨.betweenHands, table.game⟩

/-- Whether a decision is the entry of the list it was chosen from. A raise may name any
amount from the listed minimum up. -/
def AvailableAction.admits (entry : AvailableAction) (decision : Decision) : Bool :=
  match entry with
  | .fold => decision.action == .fold
  | .check => decision.action == .check
  | .call _ => decision.action == .call
  | .raise minimum => decision.action == .raise && Decidable.decide (minimum ≤ decision.amount)
  | .allIn _ => decision.action == .allIn

def PokerGame.isListed (game : PokerGame) (playerId : Int) (decision : Decision) : Bool :=
  (game.getAvailableActions playerId).any fun entry => entry.admits decision

/-- A driver step whose decision, if it makes one, is listed for the player to act. -/
def listedStep (state : DriverState) (event : DriverEvent) : Bool :=
  match event with
  | .decide decision =>
      (state.game.players[state.game.currentPlayerIndex]?).any fun player =>
        state.game.isListed player.id decision
  | _ => true

end Holdem
