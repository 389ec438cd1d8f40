import Holdem.RoundFacts
import Holdem.Legality

set_option autoImplicit false

namespace Holdem

namespace PokerGame

def nobodyActive (game : PokerGame) : Prop := ∀ seat, game.isActive seat = false

/-- The betting is over: the round is complete or the hand is at its showdown. -/
def bettingClosed (game : PokerGame) : Prop :=
  game.bettingRoundComplete = true ∨ game.currentPhase = .showdown

/-- The call starts a hand, or is an `advance_to_next_phase` that deals a street and opens its
betting round. -/
def opensRound (game : PokerGame) : Call → Bool
  | .startNewHand _ => true
  | .advanceToNextPhase =>
      game.bettingRoundComplete && decide (1 < game.remainingPlayers.length) &&
        (game.currentPhase == .preflop || game.currentPhase == .flop || game.currentPhase == .turn)
  | _ => false

theorem nobodyActive_iff {game : PokerGame} :
    game.nobodyActive ↔ ∀ player ∈ game.players, player.status ≠ .active := by
  constructor
  · intro nobody player member active
    obtain ⟨seat, here⟩ := List.mem_iff_getElem?.mp member
    have acts := isActive_iff.mpr ⟨player, here, active⟩
    rw [nobody seat] at acts
    cases acts
  · intro none seat
    by_contra acts
    obtain ⟨player, here, active⟩ := isActive_iff.mp (by simpa using acts)
    exact none player (List.mem_of_getElem? here) active

theorem rejects_of_nobody {game : PokerGame} (nobody : game.nobodyActive) (playerId : Int)
    (action : Action) (amount : Int) :
    game.processPlayerAction playerId action amount = (false, game) := by
  rcases game.processPlayerAction_cases playerId action amount with rejected |
    ⟨seat, player, _, here, _, _, active, _⟩
  · exact rejected
  · exact absurd active (nobodyActive_iff.mp nobody player (List.mem_of_getElem? here))

theorem advance_finds {game : PokerGame} (inside : game.currentPlayerIndex < game.players.length) :
    game.advanceToNextPlayer.isActive game.advanceToNextPlayer.currentPlayerIndex = true ∨
      game.advanceToNextPlayer.nobodyActive := by
  unfold advanceToNextPlayer
  dsimp only
  split
  · rename_i seat found
    exact Or.inl ((Clockwise.search_eq_some_iff inside (Nat.le_refl _)).mp found).2.1
  · rename_i missing
    exact Or.inr (nobody_of_search inside missing)

theorem nextPhase_statuses {game next : PokerGame} {moved : Bool}
    (served : game.currentPhase.cardsNeeded ≤ game.deck.length)
    (returned : game.advanceToNextPhase = .ok (moved, next)) :
    next.players.map Player.status = game.players.map Player.status := by
  rcases advanceToNextPhase_frame served returned with ⟨phase, rfl⟩ |
    ⟨phase, count, describe, seat, complete, rfl⟩
  · rfl
  · simp only [List.map_map]
    rfl

end PokerGame

/-- The part of the invariant that says nothing about whose turn it is. -/
structure Placed (table : Table) (game : PokerGame) : Prop where
  seated : Seated table game
  solvent : Solvent game
  dealer : game.dealerButton < game.players.length
  turn : game.currentPlayerIndex < game.players.length
  shown : game.currentPhase = .showdown → game.bettingRoundComplete = true

/-- What every interleaving of calls keeps: the turn of a complete round is with an
`ACTIVE` player as long as there is one. -/
structure Shared (table : Table) (game : PokerGame) : Prop extends Placed table game where
  pointed : game.bettingRoundComplete = true →
    game.isActive game.currentPlayerIndex = true ∨ game.nobodyActive

namespace Placed

variable {table : Table} {game : PokerGame}

theorem commit (placed : Placed table game) {seat : Nat} {player : Player} {done : Performed}
    {playerId amount : Int} {action : Action} (here : game.players[seat]? = some player)
    (performed : game.performAction player playerId action amount = some done)
    (written : (game.commitAction done playerId action amount).players =
      game.players.set seat done.player) :
    Placed table (game.commitAction done playerId action amount) := by
  have size : (game.commitAction done playerId action amount).players.length =
      game.players.length := by rw [written, List.length_set]
  refine ⟨placed.seated.congr ?_ rfl rfl, placed.solvent.commit here performed written,
    size ▸ placed.dealer, size ▸ placed.turn, placed.shown⟩
  rw [written]
  exact PokerGame.map_set_of_eq here (PokerGame.performAction_keeps performed).1

theorem advance (placed : Placed table game) : Placed table game.advanceToNextPlayer := by
  have solvent := placed.solvent
  have inside := PokerGame.advance_turn placed.turn
  have stays := game.advance_stays_complete
  obtain ⟨seat, complete, frame⟩ := game.advance_frame
  rw [frame] at inside stays ⊢
  exact ⟨placed.seated.congr rfl rfl rfl,
    ⟨solvent.few, solvent.chips, solvent.pot, solvent.served⟩, placed.dealer, inside,
    fun phase => stays (placed.shown phase)⟩

theorem check (placed : Placed table game)
    (pointed : game.isActive game.currentPlayerIndex = true ∨ game.nobodyActive) :
    Shared table game.checkBettingRoundComplete := by
  have solvent := placed.solvent
  unfold PokerGame.checkBettingRoundComplete
  split
  · exact ⟨⟨placed.seated.congr rfl rfl rfl,
      ⟨solvent.few, solvent.chips, solvent.pot, solvent.served⟩, placed.dealer, placed.turn,
      fun _ => rfl⟩, fun _ => pointed⟩
  · exact ⟨placed, fun _ => pointed⟩

end Placed

namespace Shared

variable {table : Table} {game next : PokerGame}

theorem initial (table : Table) : Shared table table.game := by
  obtain ⟨seated, solvent, _⟩ := table.reached_start
  have size : table.game.players.length = table.chips.length := seated.length
  have two := table.seats_ge
  have button := table.button_lt
  refine ⟨⟨seated, solvent, ?_, ?_, ?_⟩, ?_⟩
  · exact Nat.lt_of_lt_of_eq button size.symm
  · exact Nat.lt_of_lt_of_eq (Nat.lt_of_lt_of_le Nat.zero_lt_two two) size.symm
  · intro phase
    cases phase
  · intro complete
    cases complete

theorem advance (shared : Shared table game) : Shared table game.advanceToNextPlayer :=
  ⟨shared.toPlaced.advance, fun _ => PokerGame.advance_finds shared.turn⟩

theorem process (shared : Shared table game) (playerId : Int) (action : Action) (amount : Int) :
    Shared table (game.processPlayerAction playerId action amount).2 := by
  rcases game.processPlayerAction_cases playerId action amount with rejected |
    ⟨seat, player, done, here, id, _, _, _, performed, written, accepted⟩
  · rw [rejected]
    exact shared
  · rw [accepted]
    have committed := shared.toPlaced.commit here performed written
    exact committed.advance.check (PokerGame.advance_finds committed.turn)

theorem newHand (shared : Shared table game) {shuffle : Shuffle}
    (returned : game.startNewHand shuffle = .ok next) : Shared table next := by
  have few := shared.solvent.few
  obtain ⟨opened, same, invariant⟩ := startNewHand_invariant shuffle few shared.solvent.chips
  rw [returned] at same
  cases same
  have ids := invariant.accounts.ids
  have size : next.players.length = game.players.length := by simpa using congrArg List.length ids
  have solvent := invariant.solvent few
  rcases game.startNewHand_spec shuffle few with ⟨_, finished⟩ | ⟨button, opened, same, hand⟩
  · rw [returned] at finished
    cases finished
    refine ⟨⟨shared.seated.congr ids rfl rfl, solvent, size ▸ shared.dealer, size ▸ shared.turn, ?_⟩,
      ?_⟩
    · intro phase
      cases phase
    · intro complete
      cases complete
  · rw [returned] at same
    cases same
    have inPlay := hand.inPlay shared.solvent.chips
    refine ⟨⟨shared.seated.congr ids hand.blinds.1 hand.blinds.2, solvent, inPlay.dealer,
      inPlay.turn, ?_⟩, ?_⟩
    · intro phase
      rw [hand.phase] at phase
      cases phase
    · intro complete
      rw [hand.running] at complete
      cases complete

theorem nextPhase (shared : Shared table game) {moved : Bool}
    (returned : game.advanceToNextPhase = .ok (moved, next)) : Shared table next := by
  have solvent := shared.solvent.nextPhase returned
  obtain ⟨ids, small, big⟩ := PokerGame.nextPhase_seats shared.solvent.served returned
  have seated := shared.seated.congr ids small big
  have active := PokerGame.isActive_of_statuses
    (PokerGame.nextPhase_statuses shared.solvent.served returned)
  rcases PokerGame.advanceToNextPhase_cases shared.solvent.served with ⟨refused, _⟩ |
    ⟨complete, _, reveal⟩ | ⟨_, _, phase, count, describe, _, later, notShown, _, _, opened⟩
  · rw [refused] at returned
    cases returned
    exact shared
  · rw [reveal] at returned
    cases returned
    exact ⟨⟨seated, solvent, shared.dealer, shared.turn, fun _ => complete⟩, shared.pointed⟩
  · rw [opened] at returned
    cases returned
    obtain ⟨seat, complete, frame, closed, stays, first⟩ :=
      (game.dealtStreet count phase describe).startNewBettingRound_spec
    rw [frame] at seated solvent active ⊢
    refine ⟨⟨seated, solvent, ?_, ?_, fun shown => absurd shown notShown⟩, ?_⟩
    · simpa [PokerGame.dealtStreet] using shared.dealer
    · cases done : complete with
      | true => simpa [PokerGame.dealtStreet, stays done] using shared.turn
      | false =>
          have acts := (first done later shared.dealer).1
          simpa using PokerGame.isActive_lt acts
    · intro done
      refine Or.inr fun other => ?_
      rw [active other]
      exact closed.mp done other

theorem showdown (shared : Shared table game) {result : ShowdownResult}
    (returned : game.conductShowdown = .ok (next, result)) : Shared table next := by
  have taken : game.callStep .conductShowdown = some next := by
    simp [PokerGame.callStep, PokerGame.perform, returned, Except.map]
  have solvent : Solvent next := shared.solvent.call taken
  obtain ⟨ids, small, big, complete, dealer, turn⟩ := PokerGame.conductShowdown_seats returned
  obtain ⟨_, _, size, _, phase⟩ :=
    PokerGame.conductShowdown_nonneg shared.solvent.chips shared.solvent.pot returned
  have active := PokerGame.isActive_of_statuses
    (PokerGame.conductShowdown_map (f := Player.status) (fun _ _ => rfl) returned)
  refine ⟨⟨shared.seated.congr ids small big, solvent, ?_, ?_, ?_⟩, ?_⟩
  · rw [dealer, size]
    exact shared.dealer
  · rw [turn, size]
    exact shared.turn
  · rw [phase, complete]
    exact shared.shown
  · intro closed
    rw [complete] at closed
    rw [turn, active]
    exact (shared.pointed closed).imp id fun nobody other => (active other).trans (nobody other)

theorem call (shared : Shared table game) {call : Call}
    (taken : game.callStep call = some next) : Shared table next := by
  cases call with
  | startNewHand shuffle => exact shared.newHand (PokerGame.callStep_newHand taken)
  | processPlayerAction playerId action amount =>
      cases taken
      exact shared.process playerId action amount
  | advanceToNextPlayer =>
      cases taken
      exact shared.advance
  | advanceToNextPhase =>
      obtain ⟨moved, returned⟩ := PokerGame.callStep_nextPhase taken
      exact shared.nextPhase returned
  | conductShowdown =>
      obtain ⟨result, returned⟩ := PokerGame.callStep_showdown taken
      exact shared.showdown returned

/-- In a closed round the turn is with an `ACTIVE` player, who can fold, unless there is none. -/
theorem folds (shared : Shared table game) (closed : game.bettingClosed)
    (someone : ¬ game.nobodyActive) :
    (game.processPlayerAction game.currentPlayerIndex .fold 0).1 = true := by
  have complete : game.bettingRoundComplete = true := closed.elim id shared.shown
  rcases shared.pointed complete with acts | nobody
  · obtain ⟨player, here, active⟩ := PokerGame.isActive_iff.mp acts
    rw [← shared.seated.id_eq here, PokerGame.process_of_turn shared.seated ⟨here, active⟩]
    rfl
  · exact absurd nobody someone

end Shared

/-- With nobody `ACTIVE`, only a new hand lets anybody act again. -/
theorem nobodyActive_call {table : Table} {game next : PokerGame} {call : Call}
    (shared : Shared table game) (nobody : game.nobodyActive)
    (kept : game.opensRound call = false) (taken : game.callStep call = some next) :
    next.nobodyActive := by
  cases call with
  | startNewHand shuffle => cases kept
  | processPlayerAction playerId action amount =>
      cases taken
      rw [PokerGame.rejects_of_nobody nobody]
      exact nobody
  | advanceToNextPlayer =>
      cases taken
      obtain ⟨seat, complete, frame⟩ := game.advance_frame
      rw [frame]
      exact nobody
  | advanceToNextPhase =>
      obtain ⟨moved, returned⟩ := PokerGame.callStep_nextPhase taken
      have active := PokerGame.isActive_of_statuses
        (PokerGame.nextPhase_statuses shared.solvent.served returned)
      exact fun seat => (active seat).trans (nobody seat)
  | conductShowdown =>
      obtain ⟨result, returned⟩ := PokerGame.callStep_showdown taken
      have active := PokerGame.isActive_of_statuses
        (PokerGame.conductShowdown_map (f := Player.status) (fun _ _ => rfl) returned)
      exact fun seat => (active seat).trans (nobody seat)

/-- Whatever calls the threads interleave: after the betting is closed, and until a new round
opens, every `process_player_action` is refused exactly when no player is left `ACTIVE`. -/
theorem closed_betting_refuses_iff (table : Table) (calls : List Call) (game : PokerGame)
    (reached : Runs.run PokerGame.callStep table.game calls = some game)
    (closed : game.bettingClosed) :
    (∀ later state, Runs.run PokerGame.callStep game later = some state →
      Runs.meets PokerGame.callStep (fun before call => !before.opensRound call) game later = true →
      ∀ playerId action amount,
        state.processPlayerAction playerId action amount = (false, state)) ↔
      ∀ player ∈ game.players, player.status ≠ .active := by
  have shared : Shared table game :=
    Runs.run_invariant_always (Shared table) (fun _ _ _ holds taken => Shared.call holds taken)
      (Shared.initial table) reached
  rw [← PokerGame.nobodyActive_iff]
  constructor
  · intro refuses
    by_contra someone
    have refused := refuses [] game rfl rfl game.currentPlayerIndex .fold 0
    have folded := shared.folds closed someone
    rw [refused] at folded
    cases folded
  · intro nobody later state ran kept
    have holds : Shared table state ∧ state.nobodyActive :=
      Runs.run_invariant (fun state => Shared table state ∧ state.nobodyActive)
        (fun before call next both stays taken =>
          ⟨both.1.call taken, nobodyActive_call both.1 both.2 (by simpa using stays) taken⟩)
        ⟨shared, nobody⟩ kept ran
    exact PokerGame.rejects_of_nobody holds.2

/-- Heads-up both blinds go all-in before the flop: the round is closed for good. -/
theorem closed_betting_refuses_all_in :
    ∃ game, Runs.run PokerGame.callStep headsUp.game
        [.startNewHand .unshuffled, .processPlayerAction 1 .allIn 0,
          .processPlayerAction 0 .allIn 0] = some game ∧ game.bettingClosed ∧
      ∀ later state, Runs.run PokerGame.callStep game later = some state →
        Runs.meets PokerGame.callStep (fun before call => !before.opensRound call) game later =
          true →
        ∀ playerId action amount,
          state.processPlayerAction playerId action amount = (false, state) := by
  have reached : ∃ game, Runs.run PokerGame.callStep headsUp.game
      [.startNewHand .unshuffled, .processPlayerAction 1 .allIn 0,
        .processPlayerAction 0 .allIn 0] = some game ∧ game.bettingRoundComplete = true ∧
      game.players.all (fun player => player.status != .active) = true := ⟨_, rfl, rfl, rfl⟩
  obtain ⟨game, ran, complete, out⟩ := reached
  refine ⟨game, ran, Or.inl complete, ?_⟩
  exact (closed_betting_refuses_iff headsUp _ game ran (Or.inl complete)).mpr (by simpa using out)

/-- Heads-up the big blind checks and closes the round before the flop, and the small blind
still raises; checked down to the showdown, a player still puts chips in the pot. -/
theorem raise_after_round_closed :
    (∃ game next, Runs.run PokerGame.callStep headsUp.game
        [.startNewHand .unshuffled, .processPlayerAction 1 .call 0,
          .processPlayerAction 0 .check 0] = some game ∧
      game.bettingRoundComplete = true ∧
      game.processPlayerAction 1 .raise 20 = (true, next) ∧ next.pot = game.pot + 20) ∧
    (∃ game next, Runs.run PokerGame.callStep headsUp.game
        [.startNewHand .unshuffled, .processPlayerAction 1 .call 0,
          .processPlayerAction 0 .check 0, .advanceToNextPhase, .processPlayerAction 0 .check 0,
          .processPlayerAction 1 .check 0, .advanceToNextPhase, .processPlayerAction 0 .check 0,
          .processPlayerAction 1 .check 0, .advanceToNextPhase, .processPlayerAction 0 .check 0,
          .processPlayerAction 1 .check 0, .advanceToNextPhase] = some game ∧
      game.currentPhase = .showdown ∧
      game.processPlayerAction 0 .raise 20 = (true, next) ∧ next.pot = game.pot + 20) :=
  ⟨⟨_, _, rfl, rfl, rfl, rfl⟩, ⟨_, _, rfl, rfl, rfl, rfl⟩⟩

end Holdem
