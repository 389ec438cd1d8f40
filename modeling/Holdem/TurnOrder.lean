import Holdem.Legality

set_option autoImplicit false

namespace Holdem

namespace PokerGame

/-- A seat is the first `ACTIVE` one clockwise after another, which itself comes last. -/
def FirstActiveAfter (game : PokerGame) (base seat : Nat) : Prop :=
  Clockwise.IsFirst game.players.length base (fun other => game.isActive other = true) seat

theorem FirstActiveAfter.congr {game next : PokerGame} {base seat : Nat}
    (first : game.FirstActiveAfter base seat)
    (statuses : next.players.map Player.status = game.players.map Player.status) :
    next.FirstActiveAfter base seat := by
  have size : next.players.length = game.players.length := by
    simpa using congrArg List.length statuses
  have same := isActive_of_statuses statuses
  unfold FirstActiveAfter
  rw [size]
  exact Clockwise.IsFirst.congr first fun other => by rw [same]

/-- Moving the turn finds the next `ACTIVE` seat, or there is none and the round is over. -/
theorem advanceToNextPlayer_turn {game : PokerGame}
    (inside : game.currentPlayerIndex < game.players.length) :
    (∃ seat, game.FirstActiveAfter game.currentPlayerIndex seat ∧
        game.advanceToNextPlayer = { game with currentPlayerIndex := seat }) ∨
      game.advanceToNextPlayer = { game with bettingRoundComplete := true } := by
  unfold advanceToNextPlayer
  dsimp only
  split
  · rename_i seat found
    exact Or.inl ⟨seat, (Clockwise.search_iff_isFirst inside).mp found, rfl⟩
  · exact Or.inr rfl

theorem process_turn {game : PokerGame} {playerId : Int} {action : Action} {amount : Int}
    (inside : game.currentPlayerIndex < game.players.length)
    (accepted : (game.processPlayerAction playerId action amount).1 = true)
    (goes : (game.processPlayerAction playerId action amount).2.bettingRoundComplete = false) :
    (game.processPlayerAction playerId action amount).2.FirstActiveAfter
      game.currentPlayerIndex
      (game.processPlayerAction playerId action amount).2.currentPlayerIndex := by
  rcases game.processPlayerAction_cases playerId action amount with
    rejected | ⟨seat, player, done, here, _, _, _, _, _, written, result⟩
  · rw [rejected] at accepted
    cases accepted
  · rw [result] at goes ⊢
    dsimp only at goes ⊢
    have still : (game.commitAction done playerId action amount).currentPlayerIndex <
        (game.commitAction done playerId action amount).players.length := by
      rw [written, List.length_set]
      exact inside
    have kept : ∀ moved : PokerGame, moved.bettingRoundComplete = true →
        moved.checkBettingRoundComplete.bettingRoundComplete = true := by
      intro moved complete
      unfold checkBettingRoundComplete
      split
      · rfl
      · exact complete
    have checked : ∀ moved : PokerGame,
        moved.checkBettingRoundComplete.players = moved.players ∧
          moved.checkBettingRoundComplete.currentPlayerIndex = moved.currentPlayerIndex := by
      intro moved
      unfold checkBettingRoundComplete
      split <;> exact ⟨rfl, rfl⟩
    rcases advanceToNextPlayer_turn still with ⟨next, first, moved⟩ | nobody
    · rw [(checked _).2, moved]
      refine first.congr ?_
      rw [(checked _).1]
    · rw [nobody, kept _ rfl] at goes
      cases goes

theorem startNewBettingRound_turn {game : PokerGame}
    (later : game.currentPhase ≠ .preflop) (inside : game.dealerButton < game.players.length)
    (someone : ∃ seat, game.startNewBettingRound.isActive seat = true) :
    game.startNewBettingRound.FirstActiveAfter game.dealerButton
      game.startNewBettingRound.currentPlayerIndex := by
  obtain ⟨seat, complete, frame, nobody, _, first⟩ := game.startNewBettingRound_spec
  have statuses : game.startNewBettingRound.players.map Player.status =
      game.players.map Player.status := by
    rw [frame, List.map_map]
    rfl
  have going : complete = false := by
    rw [Bool.eq_false_iff]
    intro finished
    obtain ⟨other, acts⟩ := someone
    rw [isActive_of_statuses statuses, nobody.mp finished other] at acts
    cases acts
  obtain ⟨acts, least⟩ := first going later inside
  have chosen : game.FirstActiveAfter game.dealerButton seat :=
    ⟨isActive_lt acts, acts, fun other _ otherActs => least other otherActs⟩
  have turn : game.startNewBettingRound.currentPlayerIndex = seat := by rw [frame]
  rw [turn]
  exact chosen.congr statuses

theorem nextPhase_turn {game next : PokerGame} {moved : Bool}
    (served : game.currentPhase.cardsNeeded ≤ game.deck.length)
    (inside : game.dealerButton < game.players.length)
    (returned : game.advanceToNextPhase = .ok (moved, next)) (opened : moved = true)
    (street : next.currentPhase ≠ .showdown) (someone : ∃ seat, next.isActive seat = true) :
    next.FirstActiveAfter next.dealerButton next.currentPlayerIndex := by
  rcases advanceToNextPhase_cases served with ⟨refused, _⟩ | ⟨_, _, shown⟩ |
    ⟨_, _, phase, count, describe, _, later, _, _, _, dealt⟩
  · rw [refused, opened] at returned
    cases returned
  · rw [shown] at returned
    cases returned
    exact absurd rfl street
  · rw [dealt] at returned
    cases returned
    have button : (game.dealtStreet count phase describe).startNewBettingRound.dealerButton =
        game.dealerButton := by
      obtain ⟨_, _, frame, _⟩ :=
        (game.dealtStreet count phase describe).startNewBettingRound_spec
      rw [frame]
      rfl
    rw [button]
    exact startNewBettingRound_turn later inside someone

end PokerGame

/-- Turn order. In a hand of a driver run every accepted action that leaves the round open
passes the turn to the first `ACTIVE` seat clockwise after the one that acted, and every
street that is opened with an `ACTIVE` player starts at the first one after the button. -/
theorem turn_goes_clockwise (table : Table) (events : List DriverEvent) (state : DriverState)
    (played : Runs.run driverStep table.start events = some state)
    (stage : state.stage = .inHand) :
    (∀ playerId action amount,
      let result := state.game.processPlayerAction playerId action amount
      result.1 = true → result.2.bettingRoundComplete = false →
      playerId = state.game.currentPlayerIndex ∧
        result.2.FirstActiveAfter state.game.currentPlayerIndex result.2.currentPlayerIndex) ∧
    ∀ next, state.game.advanceToNextPhase = .ok (true, next) →
      next.currentPhase = .flop ∨ next.currentPhase = .turn ∨ next.currentPhase = .river →
      (∃ seat, next.isActive seat = true) →
      next.FirstActiveAfter next.dealerButton next.currentPlayerIndex := by
  have reached := table.reached played
  have inPlay := reached.inPlay stage
  constructor
  · intro playerId action amount result accepted goes
    refine ⟨?_, PokerGame.process_turn inPlay.turn accepted goes⟩
    rcases state.game.processPlayerAction_cases playerId action amount with
      rejected | ⟨_, _, _, _, _, acting, _⟩
    · rw [show result = (false, state.game) from rejected] at accepted
      cases accepted
    · exact acting
  · intro next returned street someone
    refine PokerGame.nextPhase_turn reached.solvent.served inPlay.dealer returned rfl ?_ someone
    rcases street with flop | turn | river
    · simp [flop]
    · simp [turn]
    · simp [river]

/-- The small blind calls, and the flop is opened by the big blind. -/
theorem turn_goes_clockwise_heads_up :
    (∃ state, Runs.run driverStep headsUp.start [.newHand .unshuffled] = some state ∧
      state.game.currentPlayerIndex = 1 ∧
      (state.game.processPlayerAction 1 .call 0).2.FirstActiveAfter 1
        (state.game.processPlayerAction 1 .call 0).2.currentPlayerIndex) ∧
    ∃ state next, Runs.run driverStep headsUp.start
        [.newHand .unshuffled, .decide ⟨.call, 0⟩, .decide ⟨.check, 0⟩] = some state ∧
      state.game.advanceToNextPhase = .ok (true, next) ∧ next.currentPhase = .flop ∧
      next.FirstActiveAfter next.dealerButton next.currentPlayerIndex := by
  constructor
  · have reached : ∃ state, Runs.run driverStep headsUp.start [.newHand .unshuffled] = some state ∧
        state.stage = .inHand ∧ state.game.currentPlayerIndex = 1 ∧
        (state.game.processPlayerAction 1 .call 0).1 = true ∧
        (state.game.processPlayerAction 1 .call 0).2.bettingRoundComplete = false :=
      ⟨_, rfl, rfl, rfl, by decide, by decide⟩
    obtain ⟨state, played, stage, turn, accepted, goes⟩ := reached
    obtain ⟨order, _⟩ := turn_goes_clockwise headsUp _ state played stage
    obtain ⟨_, first⟩ := order 1 .call 0 accepted goes
    rw [turn] at first
    exact ⟨state, played, turn, first⟩
  · have reached : ∃ state next, Runs.run driverStep headsUp.start
          [.newHand .unshuffled, .decide ⟨.call, 0⟩, .decide ⟨.check, 0⟩] = some state ∧
        state.stage = .inHand ∧ state.game.advanceToNextPhase = .ok (true, next) ∧
        next.currentPhase = .flop ∧ next.isActive 0 = true :=
      ⟨_, _, rfl, rfl, rfl, rfl, by decide⟩
    obtain ⟨state, next, played, stage, returned, street, active⟩ := reached
    obtain ⟨_, opens⟩ := turn_goes_clockwise headsUp _ state played stage
    exact ⟨state, next, played, returned, street,
      opens next returned (Or.inl street) ⟨0, active⟩⟩

end Holdem
