import Holdem.Phases
import Mathlib.Algebra.BigOperators.Group.List.Basic

set_option autoImplicit false

namespace Holdem

/-- The money side of an accepted action: what is paid leaves the stack and enters
both of the player's bet counters, and the stack never goes below zero. -/
structure Performed.Pays (done : Performed) (player : Player) : Prop where
  id : done.player.id = player.id
  paid : 0 ≤ done.paid
  chips : done.player.chips = player.chips - done.paid
  solvent : 0 ≤ done.player.chips
  bet : done.player.currentBet = player.currentBet + done.paid
  total : done.player.totalBetThisHand = player.totalBetThisHand + done.paid

namespace PokerGame

theorem map_set_of_eq {α β : Type} {items : List α} {seat : Nat} {before after : α} {f : α → β}
    (here : items[seat]? = some before) (same : f after = f before) :
    (items.set seat after).map f = items.map f := by
  apply List.ext_getElem?
  intro index
  rw [List.getElem?_map, List.getElem?_map, List.getElem?_set]
  split
  · rename_i at_seat
    subst at_seat
    obtain ⟨inside, _⟩ := List.getElem?_eq_some_iff.mp here
    rw [if_pos inside, here, Option.map_some, Option.map_some, same]
  · rfl

theorem sum_map_set {α : Type} {items : List α} {seat : Nat} {before after : α} (f : α → Int)
    (here : items[seat]? = some before) :
    ((items.set seat after).map f).sum = (items.map f).sum - f before + f after := by
  obtain ⟨inside, equal⟩ := List.getElem?_eq_some_iff.mp here
  rw [List.map_set, List.sum_set']
  simp only [List.length_map, inside, ↓reduceDIte, List.getElem_map, equal]
  omega

theorem getElem?_set_cases {α : Type} {items : List α} {seat index : Nat} {value item : α}
    (read : (items.set seat value)[index]? = some item) :
    (index = seat ∧ item = value) ∨ (index ≠ seat ∧ items[index]? = some item) := by
  rw [List.getElem?_set] at read
  split at read
  · rename_i same
    split at read
    · exact Or.inl ⟨same.symm, (Option.some.inj read).symm⟩
    · cases read
  · rename_i differ
    exact Or.inr ⟨Ne.symm differ, read⟩

/-- `get_player` returns an object at some seat, and writing it back sets that seat. -/
theorem putPlayer_eq_set {players : List Player} {playerId : Int} {player : Player}
    (found : players.find? (fun other => other.id == playerId) = some player) :
    ∃ seat, players[seat]? = some player ∧ player.id = playerId ∧
      ∀ after : Player, after.id = player.id →
        putPlayer players after = players.set seat after := by
  induction players with
  | nil => cases found
  | cons other rest ih =>
      rw [List.find?_cons] at found
      split at found
      · rename_i matching
        cases found
        refine ⟨0, rfl, by simpa using matching, ?_⟩
        intro after same
        simp [putPlayer, same]
      · rename_i missing
        obtain ⟨seat, here, id, written⟩ := ih found
        refine ⟨seat + 1, by simpa using here, id, ?_⟩
        intro after same
        have apart : other.id ≠ after.id := by
          intro equal
          rw [same, id] at equal
          simp [equal] at missing
        simp [putPlayer, apart, written after same]

theorem bet_stays {player : Player} (active : player.status = .active) (amount : Int) :
    (player.bet amount).2.status = .active ∨ (player.bet amount).2.status = .allIn := by
  unfold Player.bet
  split
  · exact Or.inl active
  · dsimp only
    split
    · exact Or.inr rfl
    · exact Or.inl active

/-- What an accepted action does to its player: a fold, nothing, a bet of some amount, or a
bet of the whole stack that leaves him all-in. -/
theorem performAction_player {game : PokerGame} {player : Player} {playerId amount : Int}
    {action : Action} {done : Performed}
    (performed : game.performAction player playerId action amount = some done) :
    (action = .fold ∧ done.player = player.fold ∧ done.paid = 0) ∨
      (done.player = player ∧ done.paid = 0) ∨
      (∃ stake, done.player = (player.bet stake).2 ∧ done.paid = (player.bet stake).1) ∨
      (done.player = { (player.bet player.chips).2 with status := .allIn } ∧
        done.paid = (player.bet player.chips).1) := by
  cases action <;> simp only [performAction] at performed
  case fold =>
    cases performed
    exact Or.inl ⟨rfl, rfl, rfl⟩
  case check =>
    split at performed <;> cases performed
    exact Or.inr (Or.inl ⟨rfl, rfl⟩)
  case call =>
    split at performed
    · cases performed
      exact Or.inr (Or.inl ⟨rfl, rfl⟩)
    · split at performed <;> cases performed
      exact Or.inr (Or.inr (Or.inl ⟨_, rfl, rfl⟩))
  case raise =>
    split at performed <;> cases performed
    exact Or.inr (Or.inr (Or.inl ⟨_, rfl, rfl⟩))
  case allIn =>
    split at performed
    · cases performed
    · split at performed <;> cases performed <;> exact Or.inr (Or.inr (Or.inr ⟨rfl, rfl⟩))
  case unknown => cases performed

theorem performAction_keeps {game : PokerGame} {player : Player} {playerId amount : Int}
    {action : Action} {done : Performed}
    (performed : game.performAction player playerId action amount = some done) :
    done.player.id = player.id ∧ done.player.holeCards = player.holeCards ∧
      done.player.isDealer = player.isDealer ∧ done.player.isSmallBlind = player.isSmallBlind ∧
      done.player.isBigBlind = player.isBigBlind := by
  rcases performAction_player performed with ⟨_, same, _⟩ | ⟨same, _⟩ | ⟨stake, same, _⟩ | ⟨same, _⟩
  · rw [same]
    exact ⟨rfl, rfl, rfl, rfl, rfl⟩
  · rw [same]
    exact ⟨rfl, rfl, rfl, rfl, rfl⟩
  · rw [same]
    simp
  · rw [same]
    simp

theorem bet_pays (player : Player) (amount : Int) (solvent : 0 ≤ player.chips) :
    let done := player.bet amount
    0 ≤ done.1 ∧ done.2.chips = player.chips - done.1 ∧ 0 ≤ done.2.chips ∧
      done.2.currentBet = player.currentBet + done.1 ∧
      done.2.totalBetThisHand = player.totalBetThisHand + done.1 := by
  obtain ⟨paid, chips, bet, total⟩ := player.bet_spec amount solvent
  exact ⟨by omega, chips, by omega, bet, total⟩

theorem performAction_pays {game : PokerGame} {player : Player} {playerId amount : Int}
    {action : Action} {done : Performed} (solvent : 0 ≤ player.chips)
    (performed : game.performAction player playerId action amount = some done) :
    done.Pays player := by
  obtain ⟨after, taken, _, _, _, _⟩ := done
  have outcome := performAction_player performed
  dsimp only at outcome
  rcases outcome with ⟨_, rfl, rfl⟩ | ⟨rfl, rfl⟩ | ⟨stake, rfl, rfl⟩ | ⟨rfl, rfl⟩
  · exact ⟨rfl, Int.le_refl 0, (Int.sub_zero _).symm, solvent, (Int.add_zero _).symm,
      (Int.add_zero _).symm⟩
  · exact ⟨rfl, Int.le_refl 0, (Int.sub_zero _).symm, solvent, (Int.add_zero _).symm,
      (Int.add_zero _).symm⟩
  · obtain ⟨paid, chips, left, street, hand⟩ := bet_pays player stake solvent
    exact ⟨player.bet_id stake, paid, chips, left, street, hand⟩
  · obtain ⟨paid, chips, left, street, hand⟩ := bet_pays player player.chips solvent
    exact ⟨player.bet_id player.chips, paid, chips, left, street, hand⟩

theorem performAction_funded {game : PokerGame} {player : Player} {playerId amount : Int}
    {action : Action} {done : Performed} (solvent : 0 < player.chips)
    (performed : game.performAction player playerId action amount = some done)
    (active : done.player.status = .active) : 0 < done.player.chips := by
  have betting : ∀ stake, (player.bet stake).2.status = .active → 0 < (player.bet stake).2.chips := by
    intro stake stays
    rw [Player.bet_status _ _ solvent] at stays
    obtain ⟨paid, chips, _, _⟩ := player.bet_spec stake (Int.le_of_lt solvent)
    split at stays
    · cases stays
    · omega
  rcases performAction_player performed with ⟨_, same, _⟩ | ⟨same, _⟩ | ⟨stake, same, _⟩ | ⟨same, _⟩
  · rw [same] at active
    cases active
  · rw [same]
    exact solvent
  · rw [same] at active ⊢
    exact betting stake active
  · rw [same] at active
    cases active

theorem performAction_bet_nonneg {game : PokerGame} {player : Player} {playerId amount : Int}
    {action : Action} {done : Performed} (before : 0 ≤ game.currentBet)
    (after : 0 ≤ done.player.currentBet)
    (performed : game.performAction player playerId action amount = some done) :
    0 ≤ done.currentBet := by
  cases action <;> simp only [performAction] at performed
  case fold =>
    cases performed
    exact before
  case check =>
    split at performed <;> cases performed
    exact before
  case call =>
    split at performed
    · cases performed
      exact before
    · split at performed <;> cases performed
      exact before
  case raise =>
    split at performed <;> cases performed
    exact after
  case allIn =>
    split at performed
    · cases performed
    · split at performed <;> cases performed
      · exact after
      · exact before
  case unknown => cases performed

/-- Moving the turn on and testing for the end of the round write two fields only. -/
theorem advance_check_frame (game : PokerGame) :
    ∃ seat complete, game.advanceToNextPlayer.checkBettingRoundComplete =
      { game with currentPlayerIndex := seat, bettingRoundComplete := complete } := by
  unfold advanceToNextPlayer
  dsimp only
  split <;> unfold checkBettingRoundComplete <;> split <;> exact ⟨_, _, rfl⟩

/-- Everything `process_player_action` can do: reject and change nothing, or find the
acting player at a seat, apply the action there, and move the turn on. -/
theorem processPlayerAction_cases (game : PokerGame) (playerId : Int) (action : Action)
    (amount : Int) :
    game.processPlayerAction playerId action amount = (false, game) ∨
      ∃ seat player done, game.players[seat]? = some player ∧ player.id = playerId ∧
        playerId = game.currentPlayerIndex ∧ player.status = .active ∧
        game.getPlayer playerId = some player ∧
        game.performAction player playerId action amount = some done ∧
        (game.commitAction done playerId action amount).players =
          game.players.set seat done.player ∧
        game.processPlayerAction playerId action amount =
          (true, (game.commitAction done playerId action amount).advanceToNextPlayer
            |>.checkBettingRoundComplete) := by
  unfold processPlayerAction
  split
  · exact Or.inl rfl
  · rename_i turn
    have turn : playerId = game.currentPlayerIndex := by simpa using turn
    split
    · exact Or.inl rfl
    · rename_i player found
      split
      · exact Or.inl rfl
      · rename_i status
        have status : player.status = .active := by simpa using status
        split
        · exact Or.inl rfl
        · rename_i done performed
          obtain ⟨seat, here, id, written⟩ := putPlayer_eq_set found
          exact Or.inr ⟨seat, player, done, here, id, turn, status, found, performed,
            written done.player (performAction_keeps performed).1, rfl⟩

theorem advance_deck (game : PokerGame) :
    game.advanceToNextPlayer.deck = game.deck ∧
      game.advanceToNextPlayer.currentPhase = game.currentPhase := by
  unfold advanceToNextPlayer
  dsimp only
  split <;> exact ⟨rfl, rfl⟩

theorem process_deck (game : PokerGame) (playerId : Int) (action : Action) (amount : Int) :
    (game.processPlayerAction playerId action amount).2.deck = game.deck ∧
      (game.processPlayerAction playerId action amount).2.currentPhase = game.currentPhase := by
  rcases game.processPlayerAction_cases playerId action amount with rejected |
    ⟨_, _, done, _, _, _, _, _, _, _, accepted⟩
  · rw [rejected]
    exact ⟨rfl, rfl⟩
  · rw [accepted]
    obtain ⟨seat, complete, frame⟩ :=
      (game.commitAction done playerId action amount).advance_check_frame
    rw [frame]
    exact ⟨rfl, rfl⟩

end PokerGame

end Holdem
