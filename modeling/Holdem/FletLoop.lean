import Holdem.HistoryWrites

set_option autoImplicit false

namespace Holdem

/-- A table of the Flet game: the players with these ids are of class `HumanPlayer`, the
others decide by themselves. -/
structure FletTable extends Table where
  humans : List Int

/-- `PokerFletUI.current_player_id`: the first human at the table. -/
def FletTable.currentPlayerId (table : FletTable) : Int :=
  ((table.game.players.find? fun player => table.humans.contains player.id).map
    Player.id).getD 0

/-- Where `PokerFletUI.game_loop` stands. A number of actions is the `action_counter` of the
betting loop. -/
inductive LoopStage
  | top
  | starting
  | hand
  | betting (actions : Nat)
  | waiting (playerId : Int) (actions : Nat)
  | thinking (playerId : Int) (oldPlayerIndex : Nat) (actions : Nat)
  | roundOver
  | confirming
  | advancing
  | handOver
  | results
  | asking
  | ended
deriving DecidableEq, Repr

/-- Where the turn of an AI player raises: before its decision was passed on, when the action or
the forced fold is recorded, or at one of the updates of the display after the action, the forced
fold, and the passing of the turn. -/
inductive AiFailure
  | deciding
  | acting (decision : Decision)
  | acted (decision : Decision)
  | folding (decision : Decision)
  | folded (decision : Decision)
  | advanced (decision : Decision)

/-- What happens next: a step of the loop, an answer it was waiting for, or a button of the
human, which the user interface handles at any time. `locked` tells that the history does not take
the row of the action. -/
inductive LoopEvent
  | proceed
  | startNewHand (shuffle : Shuffle)
  | timeout
  | decision (decision : Decision)
  | exception (failure : AiFailure) (locked : Bool)
  | confirm
  | advanceToNextPhase
  | conductShowdown
  | continueConfirmed
  | answer (yes : Bool)
  | handleAction (action : Action) (amount : Int) (locked : Bool)

/-- The loop and its game. `undecided` tells that a hand was started whose
`conduct_showdown` has not been run; the loop does not read it. -/
structure LoopState where
  stage : LoopStage
  game : PokerGame
  undecided : Bool

namespace PokerGame

/-- The turn of an AI player whose decision comes through: a rejected one becomes a fold, and
a turn that stays where it was is passed on by hand. -/
def aiTurn (game : PokerGame) (playerId : Int) (oldPlayerIndex : Nat) (decision : Decision) :
    PokerGame :=
  let acted := game.decideOrFold playerId decision
  if acted.currentPlayerIndex == oldPlayerIndex && !acted.bettingRoundComplete then
    acted.advanceToNextPlayer
  else acted

/-- What the turn of an AI player leaves where it raises. -/
def aiFailed (game : PokerGame) (playerId : Int) (oldPlayerIndex : Nat) : AiFailure → PokerGame
  | .deciding => game
  | .acting decision =>
      (game.processPlayerActionLocked true playerId decision.action decision.amount).2
  | .acted decision =>
      (game.processPlayerAction playerId decision.action decision.amount).2
  | .folding decision =>
      let acted := (game.processPlayerAction playerId decision.action decision.amount).2
      (acted.processPlayerActionLocked true playerId .fold 0).2
  | .folded decision => game.decideOrFold playerId decision
  | .advanced decision => game.aiTurn playerId oldPlayerIndex decision

/-- The exception handler around the turn of an AI player: it folds, and passes the turn on
if that raises too. -/
def aiException (game : PokerGame) (playerId : Int) (oldPlayerIndex : Nat)
    (failure : AiFailure) (locked : Bool) : PokerGame :=
  match (game.aiFailed playerId oldPlayerIndex failure).processPlayerActionLocked locked playerId
      .fold 0 with
  | (.raised, folded) => folded.advanceToNextPlayer
  | (.returned _, folded) => folded

def hasHumanPlayer (game : PokerGame) (humans : List Int) : Bool :=
  game.players.any fun player => player.status == .active && humans.contains player.id

/-- The head of the betting loop: the round is complete, the guard of a hundred actions
breaks, or the current player is skipped, waited for, or asked. -/
def bettingTurn (game : PokerGame) (humans : List Int) (actions : Nat) :
    Option (LoopStage × PokerGame) :=
  if game.bettingRoundComplete then some (.roundOver, game)
  else if 100 < actions + 1 then some (.roundOver, game)
  else
    match game.players[game.currentPlayerIndex]? with
    | none => none
    | some player =>
        if player.status ≠ .active then some (.betting (actions + 1), game.advanceToNextPlayer)
        else if humans.contains player.id then some (.waiting player.id (actions + 1), game)
        else some (.thinking player.id game.currentPlayerIndex (actions + 1), game)

end PokerGame

/-- `PokerFletUI.game_loop` with `GameUI.handle_action` beside it. `none` means that the step
is not taken here, or that it raises and the loop dies. -/
def loopStep (table : FletTable) (state : LoopState) (event : LoopEvent) : Option LoopState :=
  match state.stage, event with
  | _, .handleAction action amount locked =>
      -- only a human at the table is ever shown buttons
      if table.humans.isEmpty then none
      else
        some { state with
          game := (state.game.processPlayerActionLocked locked table.currentPlayerId action
            amount).2 }
  | .top, .proceed =>
      some { state with stage := if state.game.isGameOver then .ended else .starting }
  | .starting, .startNewHand shuffle =>
      match state.game.startNewHand shuffle with
      | .error _ => none
      | .ok next => some ⟨if next.currentPhase = .finished then .ended else .hand, next, true⟩
  | .hand, .proceed =>
      some { state with
        stage := if state.game.currentPhase.playing then .betting 0 else .handOver }
  | .betting actions, .proceed =>
      (state.game.bettingTurn table.humans actions).map fun turn =>
        { state with stage := turn.1, game := turn.2 }
  | .waiting playerId actions, .proceed =>
      if state.game.currentPlayerIndex = playerId ∧ state.game.bettingRoundComplete = false then
        none
      else some { state with stage := .betting actions }
  | .waiting _ actions, .timeout => some { state with stage := .betting actions }
  | .thinking playerId oldPlayerIndex actions, .decision decision =>
      some { state with
        stage := .betting actions
        game := state.game.aiTurn playerId oldPlayerIndex decision }
  | .thinking playerId oldPlayerIndex actions, .exception failure locked =>
      some { state with
        stage := .betting actions
        game := state.game.aiException playerId oldPlayerIndex failure locked }
  | .roundOver, .proceed =>
      some { state with
        stage := if state.game.hasHumanPlayer table.humans then .confirming else .advancing }
  | .confirming, .confirm => some { state with stage := .advancing }
  | .advancing, .advanceToNextPhase =>
      match state.game.advanceToNextPhase with
      | .error _ => none
      | .ok (moved, next) =>
          some { state with stage := if moved then .hand else .handOver, game := next }
  | .handOver, .conductShowdown =>
      if state.game.currentPhase = .showdown then
        match state.game.conductShowdown with
        | .error _ => none
        | .ok (next, _) => some ⟨.results, next, false⟩
      else none
  | .handOver, .proceed =>
      if state.game.currentPhase = .showdown then none
      else some { state with stage := .asking }
  | .results, .continueConfirmed =>
      some { state with stage := if state.game.isGameOver then .ended else .top }
  | .asking, .answer yes => some { state with stage := if yes then .top else .ended }
  | _, _ => none

def FletTable.startLoop (table : FletTable) : LoopState := ⟨.top, table.game, false⟩

/-- A step that, if it calls `advance_to_next_phase`, does so with the round complete. -/
def finishedRoundStep (state : LoopState) (event : LoopEvent) : Bool :=
  match state.stage, event with
  | .advancing, .advanceToNextPhase => state.game.bettingRoundComplete
  | _, _ => true

namespace PokerGame

/-- What actions and passing the turn on leave alone: the phase, and a round that is
complete. -/
structure Bets (game next : PokerGame) : Prop where
  phase : next.currentPhase = game.currentPhase
  complete : game.bettingRoundComplete = true → next.bettingRoundComplete = true

namespace Bets

variable {game middle next : PokerGame}

theorem refl (game : PokerGame) : Bets game game := ⟨rfl, id⟩

theorem trans (first : Bets game middle) (second : Bets middle next) : Bets game next :=
  ⟨second.phase.trans first.phase, fun complete => second.complete (first.complete complete)⟩

theorem advance (game : PokerGame) : Bets game game.advanceToNextPlayer :=
  ⟨game.advance_deck.2, fun complete => advance_stays_complete complete⟩

theorem check (game : PokerGame) : Bets game game.checkBettingRoundComplete := by
  unfold checkBettingRoundComplete
  split
  · exact ⟨rfl, fun _ => rfl⟩
  · exact refl game

theorem processLocked (game : PokerGame) (locked : Bool) (playerId : Int) (action : Action)
    (amount : Int) :
    Bets game (game.processPlayerActionLocked locked playerId action amount).2 := by
  rcases game.processPlayerActionLocked_cases locked playerId action amount with
    ⟨_, ended⟩ | ⟨_, done, ended⟩
  · rw [ended]
    exact refl game
  · have committed : Bets game (game.commitAction done playerId action amount) := ⟨rfl, id⟩
    dsimp only at ended
    split at ended
    · rw [ended]
      exact ⟨rfl, id⟩
    · rw [ended]
      exact committed.trans ((advance _).trans (check _))

theorem process (game : PokerGame) (playerId : Int) (action : Action) (amount : Int) :
    Bets game (game.processPlayerAction playerId action amount).2 := by
  have unlocked := processLocked game false playerId action amount
  rwa [processPlayerActionLocked_unlocked] at unlocked

theorem decideOrFold (game : PokerGame) (playerId : Int) (decision : Decision) :
    Bets game (game.decideOrFold playerId decision) := by
  unfold PokerGame.decideOrFold
  dsimp only
  split
  · exact process game playerId decision.action decision.amount
  · exact (process game playerId decision.action decision.amount).trans (process _ _ _ _)

theorem aiTurn (game : PokerGame) (playerId : Int) (oldPlayerIndex : Nat)
    (decision : Decision) : Bets game (game.aiTurn playerId oldPlayerIndex decision) := by
  unfold PokerGame.aiTurn
  dsimp only
  split
  · exact (decideOrFold game playerId decision).trans (advance _)
  · exact decideOrFold game playerId decision

theorem aiFailed (game : PokerGame) (playerId : Int) (oldPlayerIndex : Nat)
    (failure : AiFailure) : Bets game (game.aiFailed playerId oldPlayerIndex failure) := by
  cases failure with
  | deciding => exact refl game
  | acting decision => exact processLocked game true playerId decision.action decision.amount
  | acted decision => exact process game playerId decision.action decision.amount
  | folding decision =>
      have acted := process game playerId decision.action decision.amount
      exact acted.trans (processLocked _ true playerId .fold 0)
  | folded decision => exact decideOrFold game playerId decision
  | advanced decision => exact aiTurn game playerId oldPlayerIndex decision

theorem aiException (game : PokerGame) (playerId : Int) (oldPlayerIndex : Nat)
    (failure : AiFailure) (locked : Bool) :
    Bets game (game.aiException playerId oldPlayerIndex failure locked) := by
  unfold PokerGame.aiException
  have failed := aiFailed game playerId oldPlayerIndex failure
  have folded := processLocked (game.aiFailed playerId oldPlayerIndex failure) locked playerId
    .fold 0
  generalize (game.aiFailed playerId oldPlayerIndex failure).processPlayerActionLocked _ _ _ _ =
    handled at folded ⊢
  obtain ⟨ending, left⟩ := handled
  cases ending with
  | returned accepted => exact failed.trans folded
  | raised => exact (failed.trans folded).trans (advance left)

end Bets

theorem nextPhase_moves {game next : PokerGame} {moved : Bool}
    (playing : game.currentPhase.playing = true) (complete : game.bettingRoundComplete = true)
    (returned : game.advanceToNextPhase = .ok (moved, next)) :
    moved = true ∧ next.currentPhase ≠ .finished := by
  have opened : ∀ {dealing : Except PyError PokerGame} {phase : GamePhase},
      (∀ dealt, dealing = .ok dealt → dealt.currentPhase = phase) → phase ≠ .finished →
      dealing.map (fun dealt => (true, dealt.startNewBettingRound)) = .ok (moved, next) →
      moved = true ∧ next.currentPhase ≠ .finished := by
    intro dealing phase reaches notLast same
    cases dealt : dealing with
    | error raised =>
        rw [dealt] at same
        cases same
    | ok street =>
        rw [dealt] at same
        cases same
        refine ⟨rfl, ?_⟩
        rw [street.newRound_deck.2, reaches street dealt]
        exact notLast
  unfold advanceToNextPhase at returned
  rw [if_neg (by simp [complete])] at returned
  split at returned
  · cases returned
    exact ⟨rfl, by simp⟩
  · unfold changePhase at returned
    split at returned
    · exact opened (fun dealt same => dealStreet_phase same) (by simp) returned
    · exact opened (fun dealt same => dealStreet_phase same) (by simp) returned
    · exact opened (fun dealt same => dealStreet_phase same) (by simp) returned
    · cases returned
      exact ⟨rfl, by simp⟩
    · rename_i phase
      rw [phase] at playing
      cases playing
    · rename_i phase
      rw [phase] at playing
      cases playing

end PokerGame

/-- What a step of the loop can do, with what it was allowed by. -/
inductive LoopMoves (table : FletTable) : LoopState → LoopEvent → LoopState → Prop
  | acted {state : LoopState} (action : Action) (amount : Int) (locked : Bool)
      (shown : table.humans.isEmpty = false) :
      LoopMoves table state (.handleAction action amount locked)
        { state with
          game := (state.game.processPlayerActionLocked locked table.currentPlayerId action
            amount).2 }
  | looked {game : PokerGame} {undecided : Bool} :
      LoopMoves table ⟨.top, game, undecided⟩ .proceed
        ⟨if game.isGameOver then .ended else .starting, game, undecided⟩
  | started {game next : PokerGame} {undecided : Bool} {shuffle : Shuffle}
      (returned : game.startNewHand shuffle = .ok next) :
      LoopMoves table ⟨.starting, game, undecided⟩ (.startNewHand shuffle)
        ⟨if next.currentPhase = .finished then .ended else .hand, next, true⟩
  | entered {game : PokerGame} {undecided : Bool} :
      LoopMoves table ⟨.hand, game, undecided⟩ .proceed
        ⟨if game.currentPhase.playing then .betting 0 else .handOver, game, undecided⟩
  | turned {game : PokerGame} {undecided : Bool} {actions : Nat} {turn : LoopStage × PokerGame}
      (made : game.bettingTurn table.humans actions = some turn) :
      LoopMoves table ⟨.betting actions, game, undecided⟩ .proceed ⟨turn.1, turn.2, undecided⟩
  | waited {game : PokerGame} {undecided : Bool} {playerId : Int} {actions : Nat}
      (left : ¬ (game.currentPlayerIndex = playerId ∧ game.bettingRoundComplete = false)) :
      LoopMoves table ⟨.waiting playerId actions, game, undecided⟩ .proceed
        ⟨.betting actions, game, undecided⟩
  | timedOut {game : PokerGame} {undecided : Bool} {playerId : Int} {actions : Nat} :
      LoopMoves table ⟨.waiting playerId actions, game, undecided⟩ .timeout
        ⟨.betting actions, game, undecided⟩
  | decided {game : PokerGame} {undecided : Bool} {playerId : Int} {oldPlayerIndex actions : Nat}
      (decision : Decision) :
      LoopMoves table ⟨.thinking playerId oldPlayerIndex actions, game, undecided⟩
        (.decision decision)
        ⟨.betting actions, game.aiTurn playerId oldPlayerIndex decision, undecided⟩
  | failed {game : PokerGame} {undecided : Bool} {playerId : Int} {oldPlayerIndex actions : Nat}
      (failure : AiFailure) (locked : Bool) :
      LoopMoves table ⟨.thinking playerId oldPlayerIndex actions, game, undecided⟩
        (.exception failure locked)
        ⟨.betting actions, game.aiException playerId oldPlayerIndex failure locked, undecided⟩
  | closed {game : PokerGame} {undecided : Bool} :
      LoopMoves table ⟨.roundOver, game, undecided⟩ .proceed
        ⟨if game.hasHumanPlayer table.humans then .confirming else .advancing, game, undecided⟩
  | confirmed {game : PokerGame} {undecided : Bool} :
      LoopMoves table ⟨.confirming, game, undecided⟩ .confirm ⟨.advancing, game, undecided⟩
  | advanced {game next : PokerGame} {undecided moved : Bool}
      (returned : game.advanceToNextPhase = .ok (moved, next)) :
      LoopMoves table ⟨.advancing, game, undecided⟩ .advanceToNextPhase
        ⟨if moved then .hand else .handOver, next, undecided⟩
  | shown {game next : PokerGame} {undecided : Bool} {result : ShowdownResult}
      (phase : game.currentPhase = .showdown)
      (returned : game.conductShowdown = .ok (next, result)) :
      LoopMoves table ⟨.handOver, game, undecided⟩ .conductShowdown ⟨.results, next, false⟩
  | unshown {game : PokerGame} {undecided : Bool} (phase : game.currentPhase ≠ .showdown) :
      LoopMoves table ⟨.handOver, game, undecided⟩ .proceed ⟨.asking, game, undecided⟩
  | continued {game : PokerGame} {undecided : Bool} :
      LoopMoves table ⟨.results, game, undecided⟩ .continueConfirmed
        ⟨if game.isGameOver then .ended else .top, game, undecided⟩
  | answered {game : PokerGame} {undecided : Bool} (yes : Bool) :
      LoopMoves table ⟨.asking, game, undecided⟩ (.answer yes)
        ⟨if yes then .top else .ended, game, undecided⟩

theorem loopStep_moves {table : FletTable} {state next : LoopState} {event : LoopEvent}
    (taken : loopStep table state event = some next) : LoopMoves table state event next := by
  obtain ⟨stage, game, undecided⟩ := state
  cases event with
  | handleAction action amount locked =>
      simp only [loopStep] at taken
      split at taken
      · cases taken
      · rename_i humans
        cases taken
        exact .acted action amount locked (by simpa using humans)
  | proceed =>
      cases stage <;> simp only [loopStep, reduceCtorEq] at taken
      case top =>
        cases taken
        exact .looked
      case hand =>
        cases taken
        exact .entered
      case betting actions =>
        obtain ⟨turn, made, rfl⟩ := Option.map_eq_some_iff.mp taken
        exact .turned made
      case waiting playerId actions =>
        split at taken
        · cases taken
        · rename_i left
          cases taken
          exact .waited left
      case roundOver =>
        cases taken
        exact .closed
      case handOver =>
        split at taken
        · cases taken
        · rename_i unshown
          cases taken
          exact .unshown unshown
  | startNewHand shuffle =>
      cases stage <;> simp only [loopStep, reduceCtorEq] at taken
      split at taken
      · cases taken
      · rename_i returned
        cases taken
        exact .started returned
  | timeout =>
      cases stage <;> simp only [loopStep, reduceCtorEq] at taken
      cases taken
      exact .timedOut
  | decision decision =>
      cases stage <;> simp only [loopStep, reduceCtorEq] at taken
      cases taken
      exact .decided decision
  | exception failure locked =>
      cases stage <;> simp only [loopStep, reduceCtorEq] at taken
      cases taken
      exact .failed failure locked
  | confirm =>
      cases stage <;> simp only [loopStep, reduceCtorEq] at taken
      cases taken
      exact .confirmed
  | advanceToNextPhase =>
      cases stage <;> simp only [loopStep, reduceCtorEq] at taken
      split at taken
      · cases taken
      · rename_i returned
        cases taken
        exact .advanced returned
  | conductShowdown =>
      cases stage <;> simp only [loopStep, reduceCtorEq] at taken
      split at taken
      · rename_i phase
        split at taken
        · cases taken
        · rename_i returned
          cases taken
          exact .shown phase returned
      · cases taken
  | continueConfirmed =>
      cases stage <;> simp only [loopStep, reduceCtorEq] at taken
      cases taken
      exact .continued
  | answer yes =>
      cases stage <;> simp only [loopStep, reduceCtorEq] at taken
      cases taken
      exact .answered yes

/-- What the loop can rely on at each of its stages, as long as no round is left half
played. -/
def OnCourse (state : LoopState) : Prop :=
  match state.stage with
  | .top | .starting | .results => state.undecided = false
  | .hand => state.game.currentPhase ≠ .finished
  | .handOver => state.game.currentPhase = .showdown
  | .asking => False
  | .ended => True
  | _ => state.game.currentPhase.playing = true

namespace OnCourse

variable {table : FletTable} {game next : PokerGame} {undecided : Bool}

theorem bets {stage : LoopStage} (holds : OnCourse ⟨stage, game, undecided⟩)
    (bets : PokerGame.Bets game next) : OnCourse ⟨stage, next, undecided⟩ := by
  unfold OnCourse at holds ⊢
  dsimp only at holds ⊢
  rw [bets.phase]
  exact holds

theorem bettingTurn {actions : Nat} {turn : LoopStage × PokerGame}
    (playing : game.currentPhase.playing = true)
    (taken : game.bettingTurn table.humans actions = some turn) :
    OnCourse ⟨turn.1, turn.2, undecided⟩ := by
  unfold PokerGame.bettingTurn at taken
  split at taken
  · cases taken
    exact playing
  · split at taken
    · cases taken
      exact playing
    · split at taken
      · cases taken
      · split at taken
        · cases taken
          have skipped := (PokerGame.Bets.advance game).phase
          change game.advanceToNextPlayer.currentPhase.playing = true
          rw [skipped]
          exact playing
        · split at taken
          · cases taken
            exact playing
          · cases taken
            exact playing

theorem initial (table : FletTable) : OnCourse table.startLoop := rfl

theorem step {state after : LoopState} {event : LoopEvent}
    (holds : OnCourse state) (allowed : finishedRoundStep state event = true)
    (taken : loopStep table state event = some after) : OnCourse after := by
  cases loopStep_moves taken with
  | acted action amount locked shown => exact holds.bets (.processLocked ..)
  | looked =>
      split
      · trivial
      · exact holds
  | started returned =>
      split
      · trivial
      · rename_i opened
        exact opened
  | @entered game undecided =>
      split
      · rename_i playing
        exact playing
      · rename_i stopped
        change game.currentPhase ≠ .finished at holds
        change game.currentPhase = .showdown
        cases phase : game.currentPhase <;> simp_all [GamePhase.playing]
  | turned made => exact bettingTurn holds made
  | waited left => exact holds
  | timedOut => exact holds
  | decided decision => exact holds.bets (.aiTurn ..)
  | failed failure locked => exact holds.bets (.aiException ..)
  | closed => split <;> exact holds
  | confirmed => exact holds
  | advanced returned =>
      obtain ⟨rfl, phase⟩ := PokerGame.nextPhase_moves holds allowed returned
      exact phase
  | shown phase returned => rfl
  | unshown unshown => exact absurd holds unshown
  | continued =>
      split
      · trivial
      · exact holds
  | answered yes => cases holds

end OnCourse

/-- A step that does not leave a betting round through the guard of a hundred actions. -/
def unguardedStep (state : LoopState) (event : LoopEvent) : Bool :=
  match state.stage, event with
  | .betting actions, .proceed => state.game.bettingRoundComplete || decide (actions < 100)
  | _, _ => true

/-- After the betting loop the round is complete, and stays so whatever the human does. -/
def RoundClosed (state : LoopState) : Prop :=
  match state.stage with
  | .roundOver | .confirming | .advancing => state.game.bettingRoundComplete = true
  | _ => True

namespace RoundClosed

variable {table : FletTable} {game next : PokerGame} {undecided : Bool}

theorem bets {stage : LoopStage} (holds : RoundClosed ⟨stage, game, undecided⟩)
    (bets : PokerGame.Bets game next) : RoundClosed ⟨stage, next, undecided⟩ := by
  cases stage
  case roundOver => exact bets.complete holds
  case confirming => exact bets.complete holds
  case advancing => exact bets.complete holds
  all_goals trivial

theorem bettingTurn {actions : Nat} {turn : LoopStage × PokerGame}
    (unguarded : game.bettingRoundComplete = true ∨ actions < 100)
    (taken : game.bettingTurn table.humans actions = some turn) :
    RoundClosed ⟨turn.1, turn.2, undecided⟩ := by
  unfold PokerGame.bettingTurn at taken
  split at taken
  · rename_i complete
    cases taken
    exact complete
  · rename_i incomplete
    rw [if_neg (by have := unguarded.resolve_left incomplete; omega)] at taken
    split at taken
    · cases taken
    · split at taken
      · cases taken
        trivial
      · split at taken <;> cases taken <;> trivial

theorem step {state after : LoopState} {event : LoopEvent}
    (holds : RoundClosed state) (allowed : unguardedStep state event = true)
    (taken : loopStep table state event = some after) : RoundClosed after := by
  cases loopStep_moves taken with
  | acted action amount locked shown => exact holds.bets (.processLocked ..)
  | looked => split <;> trivial
  | started returned => split <;> trivial
  | entered => split <;> trivial
  | turned made => exact bettingTurn (by simpa [unguardedStep] using allowed) made
  | waited left => trivial
  | timedOut => trivial
  | decided decision => trivial
  | failed failure locked => trivial
  | closed => split <;> exact holds
  | confirmed => exact holds
  | advanced returned => split <;> trivial
  | shown phase returned => trivial
  | unshown unshown => trivial
  | continued => split <;> trivial
  | answered yes => split <;> trivial

end RoundClosed

/-- Without the guard every `advance_to_next_phase` comes after a complete round. -/
theorem rounds_finished_unguarded (table : FletTable) (events : List LoopEvent)
    (unguarded : Runs.meets (loopStep table) unguardedStep table.startLoop events = true) :
    Runs.meets (loopStep table) finishedRoundStep table.startLoop events = true := by
  refine Runs.meets_of_invariant RoundClosed ?_ ?_ trivial unguarded
  · intro state event next holds allowed taken
    exact holds.step allowed taken
  · intro state event holds
    unfold finishedRoundStep
    split
    · rename_i stage
      unfold RoundClosed at holds
      rwa [stage] at holds
    · rfl

/-- Whatever the players and the human do: as long as `advance_to_next_phase` is called on
complete rounds only, a new hand is started when the last one is decided or has no pot. -/
theorem hands_decided_before_next (table : FletTable) (events : List LoopEvent)
    (state : LoopState) (reached : Runs.run (loopStep table) table.startLoop events = some state)
    (finished : Runs.meets (loopStep table) finishedRoundStep table.startLoop events = true)
    (starting : state.stage = .starting) :
    state.undecided = false ∨ state.game.pot = 0 := by
  have course : OnCourse state :=
    Runs.run_invariant OnCourse (fun _ _ _ holds allowed taken => holds.step allowed taken)
      (OnCourse.initial table) finished reached
  unfold OnCourse at course
  rw [starting] at course
  exact Or.inl course

/-- Waiting for a human who does nothing only counts actions. -/
theorem timeouts_run {table : FletTable} {game : PokerGame} {player : Player}
    (incomplete : game.bettingRoundComplete = false)
    (here : game.players[game.currentPlayerIndex]? = some player)
    (active : player.status = .active) (human : table.humans.contains player.id = true)
    (undecided : Bool) (count actions : Nat) (below : actions + count ≤ 100) :
    Runs.run (loopStep table) ⟨.betting actions, game, undecided⟩
        (List.replicate count [LoopEvent.proceed, .timeout]).flatten =
      some ⟨.betting (actions + count), game, undecided⟩ := by
  induction count generalizing actions with
  | zero => rfl
  | succ count ih =>
      have waits : game.bettingTurn table.humans actions =
          some (.waiting player.id (actions + 1), game) := by
        unfold PokerGame.bettingTurn
        rw [incomplete, if_neg (by simp), if_neg (by omega), here]
        dsimp only
        rw [if_neg (by simpa using active), if_pos human]
      have once : loopStep table ⟨.betting actions, game, undecided⟩ .proceed =
          some ⟨.waiting player.id (actions + 1), game, undecided⟩ := by
        simp only [loopStep, waits, Option.map_some]
      rw [List.replicate_succ, List.flatten_cons]
      refine Runs.run_append.mpr ⟨⟨.betting (actions + 1), game, undecided⟩, ?_, ?_⟩
      · exact Runs.run_cons_eq_some.mpr ⟨_, once, rfl⟩
      · rw [ih (actions + 1) (by omega)]
        congr 3
        omega

def headsUpHuman : FletTable := { headsUp with humans := [1] }

/-- The human folds, the showdown pays the other player, and the next hand is started. -/
theorem hands_decided_before_next_folded :
    ∃ state, Runs.run (loopStep headsUpHuman) headsUpHuman.startLoop
        [.proceed, .startNewHand .unshuffled, .proceed, .proceed, .handleAction .fold 0 false,
          .proceed, .proceed, .proceed, .advanceToNextPhase, .proceed, .conductShowdown,
          .continueConfirmed, .proceed] = some state ∧ state.stage = .starting ∧
      (state.undecided = false ∨ state.game.pot = 0) := by
  have reached : ∃ state, Runs.run (loopStep headsUpHuman) headsUpHuman.startLoop
      [.proceed, .startNewHand .unshuffled, .proceed, .proceed, .handleAction .fold 0 false,
        .proceed, .proceed, .proceed, .advanceToNextPhase, .proceed, .conductShowdown,
        .continueConfirmed, .proceed] = some state ∧ state.stage = .starting := ⟨_, rfl, rfl⟩
  obtain ⟨state, ran, starting⟩ := reached
  exact ⟨state, ran, starting, hands_decided_before_next headsUpHuman _ state ran rfl starting⟩

/-- The human lets the clock run out a hundred times before the flop: the guard breaks,
`advance_to_next_phase` refuses, and the answer to go on wipes the blinds. -/
theorem blinds_wiped_after_timeouts :
    ∃ state next, Runs.run (loopStep headsUpHuman) headsUpHuman.startLoop
        ([.proceed, .startNewHand .unshuffled, .proceed] ++
          (List.replicate 100 [LoopEvent.proceed, .timeout]).flatten ++
          [.proceed, .proceed, .confirm, .advanceToNextPhase, .proceed, .answer true, .proceed]) =
        some state ∧
      state.stage = .starting ∧ state.undecided = true ∧ state.game.pot = 30 ∧
      state.game.players.map Player.chips = [80, 90] ∧
      loopStep headsUpHuman state (.startNewHand .unshuffled) = some next ∧
      next.game.pot + (next.game.players.map Player.chips).sum = 170 := by
  have dealt : ∃ game player, Runs.run (loopStep headsUpHuman) headsUpHuman.startLoop
      [.proceed, .startNewHand .unshuffled, .proceed] = some ⟨.betting 0, game, true⟩ ∧
      game.bettingRoundComplete = false ∧
      game.players[game.currentPlayerIndex]? = some player ∧ player.status = .active ∧
      headsUpHuman.humans.contains player.id = true ∧
      ∃ state next, Runs.run (loopStep headsUpHuman) ⟨.betting 100, game, true⟩
          [.proceed, .proceed, .confirm, .advanceToNextPhase, .proceed, .answer true, .proceed] =
          some state ∧
        state.stage = .starting ∧ state.undecided = true ∧ state.game.pot = 30 ∧
        state.game.players.map Player.chips = [80, 90] ∧
        loopStep headsUpHuman state (.startNewHand .unshuffled) = some next ∧
        next.game.pot + (next.game.players.map Player.chips).sum = 170 :=
    ⟨_, _, rfl, rfl, rfl, rfl, rfl, _, _, rfl, rfl, rfl, rfl, rfl, rfl, rfl⟩
  obtain ⟨game, player, opened, incomplete, here, active, human, state, next, left, rest⟩ := dealt
  have waited := timeouts_run incomplete here active human true 100 0 (Nat.le_refl _)
  exact ⟨state, next, Runs.run_append.mpr ⟨_, Runs.run_append.mpr ⟨_, opened, waited⟩, left⟩, rest⟩

end Holdem
