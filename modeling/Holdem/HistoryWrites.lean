import Holdem.Legality

set_option autoImplicit false

namespace Holdem

/-- How `process_player_action` ends: it returns whether the action was accepted, or the
history write raises. -/
inductive ActionEnd
  | returned (accepted : Bool)
  | raised
deriving DecidableEq, Repr

namespace PokerGame

/-- `PokerGame.process_player_action` over a history file that may be locked. The write
stands after the chips have moved and the action was appended to the history, and before
the turn advances; a row is written only inside a hand. -/
def processPlayerActionLocked (game : PokerGame) (locked : Bool) (playerId : Int)
    (action : Action) (amount : Int) : ActionEnd × PokerGame :=
  if playerId ≠ game.currentPlayerIndex then (.returned false, game)
  else
    match game.getPlayer playerId with
    | none => (.returned false, game)
    | some player =>
        if player.status ≠ .active then (.returned false, game)
        else
          match game.performAction player playerId action amount with
          | none => (.returned false, game)
          | some done =>
              let committed := game.commitAction done playerId action amount
              if locked && game.currentHandId.isSome then
                (.raised, { committed with db := game.db })
              else
                (.returned true,
                  committed.advanceToNextPlayer.checkBettingRoundComplete)

theorem processPlayerActionLocked_unlocked (game : PokerGame) (playerId : Int) (action : Action)
    (amount : Int) :
    game.processPlayerActionLocked false playerId action amount =
      (.returned (game.processPlayerAction playerId action amount).1,
        (game.processPlayerAction playerId action amount).2) := by
  unfold processPlayerActionLocked processPlayerAction
  by_cases here : playerId = game.currentPlayerIndex
  · rw [if_neg (not_not.mpr here), if_neg (not_not.mpr here)]
    cases game.getPlayer playerId with
    | none => rfl
    | some player =>
        dsimp only
        by_cases active : player.status = .active
        · rw [if_neg (not_not.mpr active), if_neg (not_not.mpr active)]
          cases game.performAction player playerId action amount with
          | none => rfl
          | some done => rfl
        · rw [if_pos active, if_pos active]
  · rw [if_pos here, if_pos here]

/-- The action passes every check of `process_player_action`: it is the player's turn, the
player is known and `ACTIVE`, and the rule of the action itself admits it. -/
def passesChecks (game : PokerGame) (playerId : Int) (action : Action) (amount : Int) : Bool :=
  playerId == game.currentPlayerIndex &&
    match game.getPlayer playerId with
    | none => false
    | some player => player.status == .active && game.accepts player action amount

theorem processPlayerActionLocked_cases (game : PokerGame) (locked : Bool) (playerId : Int)
    (action : Action) (amount : Int) :
    (game.passesChecks playerId action amount = false ∧
        game.processPlayerActionLocked locked playerId action amount =
          (.returned false, game)) ∨
      (game.passesChecks playerId action amount = true ∧ ∃ done,
        let committed := game.commitAction done playerId action amount
        if locked && game.currentHandId.isSome then
          game.processPlayerActionLocked locked playerId action amount =
            (.raised, { committed with db := game.db })
        else
          game.processPlayerActionLocked locked playerId action amount =
            (.returned true, committed.advanceToNextPlayer.checkBettingRoundComplete)) := by
  unfold processPlayerActionLocked passesChecks
  by_cases here : playerId = game.currentPlayerIndex
  · rw [if_neg (not_not.mpr here)]
    cases found : game.getPlayer playerId with
    | none => exact Or.inl ⟨by simp, rfl⟩
    | some player =>
        by_cases active : player.status = .active
        · have admitted := game.performAction_isSome player playerId action amount
          dsimp only
          rw [if_neg (not_not.mpr active)]
          cases performed : game.performAction player playerId action amount with
          | none =>
              rw [performed] at admitted
              exact Or.inl ⟨by simp [← admitted], rfl⟩
          | some done =>
              rw [performed] at admitted
              refine Or.inr ⟨by simp [here, active, ← admitted], done, ?_⟩
              dsimp only
              split <;> rfl
        · exact Or.inl ⟨by simp [active], by simp [active]⟩
  · exact Or.inl ⟨by simp [here], if_pos here⟩

/-- Nothing of the betting has changed: players, pot and bets, the last raiser, the action
history, the turn and the end of the round. -/
structure SameTable (before after : PokerGame) : Prop where
  players : after.players = before.players
  pot : after.pot = before.pot
  currentBet : after.currentBet = before.currentBet
  lastRaiser : after.lastRaiserIndex = before.lastRaiserIndex
  raised : after.hasBetOrRaiseThisRound = before.hasBetOrRaiseThisRound
  history : after.actionHistory = before.actionHistory
  turn : after.currentPlayerIndex = before.currentPlayerIndex
  complete : after.bettingRoundComplete = before.bettingRoundComplete

/-- A call that returns False changes nothing. A call that does not return True changes
nothing exactly when it does not get as far as a write that raises. -/
theorem action_all_or_nothing_iff (game : PokerGame) (locked : Bool) (playerId : Int)
    (action : Action) (amount : Int) :
    let result := game.processPlayerActionLocked locked playerId action amount
    (result.1 = .returned false → game.SameTable result.2) ∧
      ((result.1 ≠ .returned true → game.SameTable result.2) ↔
        ¬ (locked = true ∧ game.currentHandId.isSome = true ∧
          game.passesChecks playerId action amount = true)) := by
  intro result
  rcases game.processPlayerActionLocked_cases locked playerId action amount with
    ⟨fails, ended⟩ | ⟨passes, done, ended⟩
  · have same : game.SameTable result.2 := by
      rw [show result = (.returned false, game) from ended]
      exact ⟨rfl, rfl, rfl, rfl, rfl, rfl, rfl, rfl⟩
    refine ⟨fun _ => same, fun _ => ?_, fun _ _ => same⟩
    rw [fails]
    simp
  · dsimp only at ended
    split at ended
    · rename_i blocked
      rw [show result = _ from ended]
      rw [Bool.and_eq_true] at blocked
      refine ⟨by simp, fun unchanged => ?_, fun free => absurd ⟨blocked.1, blocked.2, passes⟩ free⟩
      have kept := (unchanged (by simp)).history
      simp [commitAction] at kept
    · rename_i free
      rw [show result = _ from ended]
      refine ⟨by simp, fun _ stuck => free ?_, fun _ returned => absurd rfl returned⟩
      rw [Bool.and_eq_true]
      exact ⟨stuck.1, stuck.2.1⟩

/-- The button calls while the history file is locked: the exception leaves its chips in the
pot and the turn where it was. -/
theorem locked_history_keeps_chips :
    ∃ state, Runs.run driverStep headsUp.start [.newHand .unshuffled] = some state ∧
      (state.game.processPlayerActionLocked true 1 .call 0).1 = .raised ∧
      state.game.pot = 30 ∧ (state.game.processPlayerActionLocked true 1 .call 0).2.pot = 40 ∧
      state.game.currentPlayerIndex = 1 ∧
      (state.game.processPlayerActionLocked true 1 .call 0).2.currentPlayerIndex = 1 ∧
      ¬ state.game.SameTable (state.game.processPlayerActionLocked true 1 .call 0).2 := by
  refine ⟨_, rfl, by decide, by decide, by decide, by decide, by decide, ?_⟩
  intro same
  exact absurd same.pot (by decide)

end PokerGame

end Holdem
