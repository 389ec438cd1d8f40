import Holdem.HandStart
import Holdem.ShowdownFacts
import Holdem.Driver
import Mathlib.Algebra.Order.BigOperators.Group.List

set_option autoImplicit false

namespace Holdem

/-- A table as `setup_game` can leave it, with arbitrary distinct ids and stacks. -/
structure Setup where
  smallBlind : Int
  bigBlind : Int
  players : List Player
  button : Nat
  seats : 2 ≤ players.length ∧ players.length ≤ 10
  distinct : (players.map Player.id).Nodup
  solvent : ∀ player ∈ players, 0 ≤ player.chips
  blinds : 0 ≤ smallBlind ∧ 0 ≤ bigBlind

def Setup.game (setup : Setup) : PokerGame :=
  { smallBlind := setup.smallBlind
    bigBlind := setup.bigBlind
    players := setup.players
    dealerButton := setup.button }

def Call.betting : Call → Bool
  | .processPlayerAction _ _ _ => true
  | .advanceToNextPlayer => true
  | .advanceToNextPhase => true
  | .startNewHand _ => false
  | .conductShowdown => false

/-- The books of a hand that began from the table `start`, seat by seat. -/
structure HandAccounts (start game : PokerGame) : Prop where
  ids : game.players.map Player.id = start.players.map Player.id
  stakes : game.players.map Player.stake = start.players.map Player.chips
  bounds : ∀ player ∈ game.players, 0 ≤ player.chips ∧ 0 ≤ player.currentBet ∧
    player.currentBet ≤ player.totalBetThisHand
  pot : game.pot = (game.players.map Player.totalBetThisHand).sum

namespace HandAccounts

variable {start game : PokerGame}

theorem congr (accounts : HandAccounts start game) {next : PokerGame}
    (players : next.players = game.players) (pot : next.pot = game.pot) :
    HandAccounts start next := by
  obtain ⟨ids, stakes, bounds, total⟩ := accounts
  exact ⟨players ▸ ids, players ▸ stakes, players ▸ bounds, by rw [pot, players, total]⟩

theorem pay (accounts : HandAccounts start game) {next : PokerGame} {seat : Nat} {player : Player}
    {done : Performed} (here : game.players[seat]? = some player) (pays : done.Pays player)
    (players : next.players = game.players.set seat done.player)
    (pot : next.pot = game.pot + done.paid) : HandAccounts start next := by
  obtain ⟨ids, stakes, bounds, total⟩ := accounts
  have sameStake : done.player.stake = player.stake := by
    unfold Player.stake
    rw [pays.chips, pays.total]
    omega
  refine ⟨?_, ?_, ?_, ?_⟩
  · rw [players, PokerGame.map_set_of_eq here pays.id, ids]
  · rw [players, PokerGame.map_set_of_eq here sameStake, stakes]
  · intro other member
    rw [players] at member
    rcases List.mem_or_eq_of_mem_set member with old | rfl
    · exact bounds other old
    · have before := bounds player (List.mem_of_getElem? here)
      have paid := pays.paid
      rw [pays.bet, pays.total]
      exact ⟨pays.solvent, by omega, by omega⟩
  · rw [players, pot, total, PokerGame.sum_map_set _ here, pays.total]
    omega

theorem clearBets (accounts : HandAccounts start game) {next : PokerGame}
    (players : next.players = game.players.map Player.resetForNewBettingRound)
    (pot : next.pot = game.pot) : HandAccounts start next := by
  obtain ⟨ids, stakes, bounds, total⟩ := accounts
  refine ⟨?_, ?_, ?_, ?_⟩
  · rw [players, List.map_map, ← ids]
    rfl
  · rw [players, List.map_map, ← stakes]
    rfl
  · intro other member
    rw [players] at member
    obtain ⟨player, old, rfl⟩ := List.mem_map.mp member
    obtain ⟨chips, bet, total⟩ := bounds player old
    exact ⟨chips, Int.le_refl 0, Int.le_trans bet total⟩
  · rw [players, pot, total, List.map_map]
    rfl

end HandAccounts

namespace PokerGame

/-- Blinds move chips from a stack to the bets of the same seat. -/
theorem openSeat_accounts (game : PokerGame) (button small big seat : Nat) {player : Player}
    (solvent : 0 ≤ player.chips) :
    let opened := game.openSeat button small big seat player
    opened.id = player.id ∧ opened.stake = player.chips ∧ 0 ≤ opened.chips ∧
      0 ≤ opened.currentBet ∧ opened.currentBet = opened.totalBetThisHand := by
  have betting : ∀ (fresh : Player) (blind : Int), fresh.id = player.id →
      fresh.chips = player.chips → fresh.currentBet = 0 → fresh.totalBetThisHand = 0 →
      (fresh.bet blind).2.id = player.id ∧ (fresh.bet blind).2.stake = player.chips ∧
        0 ≤ (fresh.bet blind).2.chips ∧ 0 ≤ (fresh.bet blind).2.currentBet ∧
        (fresh.bet blind).2.currentBet = (fresh.bet blind).2.totalBetThisHand := by
    intro fresh blind id chips bet total
    obtain ⟨paid, left, street, hand⟩ := fresh.bet_spec blind (chips ▸ solvent)
    refine ⟨by rw [Player.bet_id, id], ?_, by omega, by omega, by omega⟩
    unfold Player.stake
    omega
  intro opened
  simp only [opened, openSeat]
  split
  · exact betting _ _ rfl rfl rfl rfl
  · split
    · exact betting _ _ rfl rfl rfl rfl
    · refine ⟨rfl, ?_, solvent, Int.le_refl 0, rfl⟩
      simp [Player.stake, Player.resetForNewHand]

end PokerGame

/-- The books balance right after the blinds. -/
theorem OpenedHand.accounts {game next : PokerGame} {button small big : Nat}
    (hand : OpenedHand game button small big next)
    (solvent : ∀ player ∈ game.players, 0 ≤ player.chips) : HandAccounts game next := by
  have facts := fun (seat : Nat) (player : Player) (here : game.players[seat]? = some player) =>
    game.openSeat_accounts button small big seat (solvent player (List.mem_of_getElem? here))
  refine ⟨?_, ?_, ?_, hand.pot⟩
  · exact hand.map_eq fun seat player here cards => (facts seat player here).1
  · exact hand.map_eq fun seat player here cards => (facts seat player here).2.1
  · intro opened member
    obtain ⟨seat, there⟩ := List.mem_iff_getElem?.mp member
    obtain ⟨player, cards, here, rfl⟩ := hand.player_of_seat there
    obtain ⟨_, _, chips, bet, total⟩ := facts seat player here
    exact ⟨chips, bet, Int.le_of_eq total⟩

/-- Everything that stays true of a hand until its showdown: the books, and a deck that
can serve the streets left. -/
structure HandInvariant (start game : PokerGame) : Prop where
  accounts : HandAccounts start game
  served : game.currentPhase.cardsNeeded ≤ game.deck.length

namespace HandInvariant

variable {start game : PokerGame}

theorem process (invariant : HandInvariant start game) (playerId : Int) (action : Action)
    (amount : Int) :
    HandInvariant start (game.processPlayerAction playerId action amount).2 := by
  rcases game.processPlayerAction_cases playerId action amount with rejected |
    ⟨seat, player, done, here, _, _, _, _, performed, written, accepted⟩
  · rw [rejected]
    exact invariant
  · rw [accepted]
    obtain ⟨turn, complete, frame⟩ :=
      (game.commitAction done playerId action amount).advance_check_frame
    rw [frame]
    have solvent := (invariant.accounts.bounds player (List.mem_of_getElem? here)).1
    exact ⟨invariant.accounts.pay here (PokerGame.performAction_pays solvent performed) written rfl,
      invariant.served⟩

theorem advance (invariant : HandInvariant start game) :
    HandInvariant start game.advanceToNextPlayer := by
  unfold PokerGame.advanceToNextPlayer
  dsimp only
  split
  · exact ⟨invariant.accounts.congr rfl rfl, invariant.served⟩
  · exact ⟨invariant.accounts.congr rfl rfl, invariant.served⟩

theorem nextPhase (invariant : HandInvariant start game) :
    ∃ moved next, game.advanceToNextPhase = .ok (moved, next) ∧ HandInvariant start next := by
  rcases PokerGame.advanceToNextPhase_cases invariant.served with ⟨refused, _⟩ |
    ⟨_, _, shown⟩ | ⟨_, _, phase, count, describe, _, _, _, _, needed, opened⟩
  · exact ⟨_, _, refused, invariant⟩
  · exact ⟨_, _, shown, invariant.accounts.congr rfl rfl, Nat.zero_le _⟩
  · refine ⟨_, _, opened, ?_⟩
    obtain ⟨turn, complete, frame, _⟩ :=
      (game.dealtStreet count phase describe).startNewBettingRound_spec
    rw [frame]
    refine ⟨invariant.accounts.clearBets rfl rfl, ?_⟩
    have enough := invariant.served
    change phase.cardsNeeded ≤ (game.deck.drop (count + 1)).length
    rw [List.length_drop]
    omega

theorem call (invariant : HandInvariant start game) {call : Call} (betting : call.betting = true) :
    ∃ next, game.callStep call = some next ∧ HandInvariant start next := by
  cases call with
  | startNewHand shuffle => cases betting
  | conductShowdown => cases betting
  | processPlayerAction playerId action amount =>
      exact ⟨_, rfl, invariant.process playerId action amount⟩
  | advanceToNextPlayer => exact ⟨_, rfl, invariant.advance⟩
  | advanceToNextPhase =>
      obtain ⟨moved, next, returned, kept⟩ := invariant.nextPhase
      refine ⟨next, ?_, kept⟩
      simp [PokerGame.callStep, PokerGame.perform, returned, Except.map]

theorem run (invariant : HandInvariant start game) {calls : List Call}
    (betting : ∀ call ∈ calls, call.betting = true) :
    ∃ final, Runs.run PokerGame.callStep game calls = some final ∧ HandInvariant start final := by
  induction calls generalizing game with
  | nil => exact ⟨game, rfl, invariant⟩
  | cons call rest ih =>
      obtain ⟨next, taken, kept⟩ := invariant.call (betting call (by simp))
      obtain ⟨final, reached, holds⟩ :=
        ih kept fun other member => betting other (List.mem_cons_of_mem _ member)
      exact ⟨final, Runs.run_cons_eq_some.mpr ⟨next, taken, reached⟩, holds⟩

end HandInvariant

/-- A hand that was just started satisfies the invariant, also when it was refused for
want of two players with chips. -/
theorem startNewHand_invariant {start : PokerGame} (shuffle : Shuffle)
    (few : start.players.length ≤ 10) (solvent : ∀ player ∈ start.players, 0 ≤ player.chips) :
    ∃ opened, start.startNewHand shuffle = .ok opened ∧ HandInvariant start opened := by
  rcases start.startNewHand_spec shuffle few with ⟨_, finished⟩ | ⟨button, next, opened, hand⟩
  · refine ⟨_, finished, ⟨?_, ?_, ?_, ?_⟩, Nat.zero_le _⟩
    · simp only [PokerGame.resetForHand, List.map_map]
      rfl
    · simp only [PokerGame.resetForHand, List.map_map]
      apply List.map_congr_left
      intro player _
      simp [Player.stake, Player.resetForNewHand]
    · intro player member
      obtain ⟨before, inside, rfl⟩ := List.mem_map.mp member
      exact ⟨solvent before inside, Int.le_refl 0, Int.le_refl 0⟩
    · symm
      apply List.sum_eq_zero
      intro total member
      obtain ⟨player, inside, rfl⟩ := List.mem_map.mp member
      obtain ⟨before, _, rfl⟩ := List.mem_map.mp inside
      rfl
  · refine ⟨next, opened, hand.accounts solvent, ?_⟩
    have enough := hand.deck
    rw [hand.phase]
    exact Nat.le_trans (by decide) enough

/-- What stays true of a table through every call, showdowns and new hands included. -/
structure Solvent (game : PokerGame) : Prop where
  few : game.players.length ≤ 10
  chips : ∀ player ∈ game.players, 0 ≤ player.chips
  pot : 0 ≤ game.pot
  served : game.currentPhase.cardsNeeded ≤ game.deck.length

theorem HandInvariant.solvent {start game : PokerGame} (invariant : HandInvariant start game)
    (few : start.players.length ≤ 10) : Solvent game := by
  obtain ⟨⟨ids, _, bounds, pot⟩, served⟩ := invariant
  have length : game.players.length = start.players.length := by
    simpa using congrArg List.length ids
  refine ⟨by omega, fun player member => (bounds player member).1, ?_, served⟩
  rw [pot]
  apply List.sum_nonneg
  intro total member
  obtain ⟨player, inside, rfl⟩ := List.mem_map.mp member
  obtain ⟨_, bet, most⟩ := bounds player inside
  exact Int.le_trans bet most

theorem Solvent.commit {game : PokerGame} (solvent : Solvent game) {seat : Nat} {player : Player}
    {done : Performed} {playerId amount : Int} {action : Action}
    (here : game.players[seat]? = some player)
    (performed : game.performAction player playerId action amount = some done)
    (written : (game.commitAction done playerId action amount).players =
      game.players.set seat done.player) :
    Solvent (game.commitAction done playerId action amount) := by
  have pays := PokerGame.performAction_pays
    (solvent.chips player (List.mem_of_getElem? here)) performed
  refine ⟨?_, ?_, Int.add_nonneg solvent.pot pays.paid, solvent.served⟩
  · rw [written, List.length_set]
    exact solvent.few
  · intro other member
    rw [written] at member
    rcases List.mem_or_eq_of_mem_set member with old | rfl
    · exact solvent.chips other old
    · exact pays.solvent

theorem Solvent.process {game : PokerGame} (solvent : Solvent game) (playerId : Int)
    (action : Action) (amount : Int) :
    Solvent (game.processPlayerAction playerId action amount).2 := by
  rcases game.processPlayerAction_cases playerId action amount with rejected |
    ⟨seat, player, done, here, _, _, _, _, performed, written, accepted⟩
  · rw [rejected]
    exact solvent
  · rw [accepted]
    obtain ⟨few, chips, pot, served⟩ := solvent.commit here performed written
    obtain ⟨turn, complete, frame⟩ :=
      (game.commitAction done playerId action amount).advance_check_frame
    rw [frame]
    exact ⟨few, chips, pot, served⟩

theorem Solvent.nextPhase {game next : PokerGame} {moved : Bool} (solvent : Solvent game)
    (returned : game.advanceToNextPhase = .ok (moved, next)) : Solvent next := by
  rcases PokerGame.advanceToNextPhase_cases solvent.served with ⟨refused, _⟩ |
    ⟨_, _, shown⟩ | ⟨_, _, phase, count, describe, _, _, _, _, needed, opened⟩
  · rw [refused] at returned
    cases returned
    exact solvent
  · rw [shown] at returned
    cases returned
    exact ⟨solvent.few, solvent.chips, solvent.pot, Nat.zero_le _⟩
  · rw [opened] at returned
    cases returned
    obtain ⟨turn, complete, frame, _⟩ :=
      (game.dealtStreet count phase describe).startNewBettingRound_spec
    rw [frame]
    refine ⟨by simpa [PokerGame.dealtStreet] using solvent.few, ?_, solvent.pot, ?_⟩
    · intro player member
      obtain ⟨before, inside, rfl⟩ := List.mem_map.mp member
      exact solvent.chips before inside
    · have enough := solvent.served
      change phase.cardsNeeded ≤ (game.deck.drop (count + 1)).length
      rw [List.length_drop]
      omega

/-! ### Inversion of the calls -/

namespace PokerGame

variable {game next : PokerGame}

theorem callStep_newHand {shuffle : Shuffle}
    (taken : game.callStep (.startNewHand shuffle) = some next) :
    game.startNewHand shuffle = .ok next := by
  cases returned : game.startNewHand shuffle <;>
    simp_all [callStep, perform, Except.map]

theorem callStep_nextPhase (taken : game.callStep .advanceToNextPhase = some next) :
    ∃ moved, game.advanceToNextPhase = .ok (moved, next) := by
  cases returned : game.advanceToNextPhase with
  | error raised => simp [callStep, perform, returned, Except.map] at taken
  | ok pair =>
      simp only [callStep, perform, returned, Except.map, Option.some.injEq] at taken
      exact ⟨pair.1, by rw [← taken]⟩

theorem callStep_showdown (taken : game.callStep .conductShowdown = some next) :
    ∃ result, game.conductShowdown = .ok (next, result) := by
  cases returned : game.conductShowdown with
  | error raised => simp [callStep, perform, returned, Except.map] at taken
  | ok pair =>
      simp only [callStep, perform, returned, Except.map, Option.some.injEq] at taken
      exact ⟨pair.2, by rw [← taken]⟩

end PokerGame

theorem Solvent.call {game next : PokerGame} (solvent : Solvent game) {call : Call}
    (taken : game.callStep call = some next) : Solvent next := by
  cases call with
  | startNewHand shuffle =>
      obtain ⟨opened, returned, invariant⟩ :=
        startNewHand_invariant shuffle solvent.few solvent.chips
      rw [PokerGame.callStep_newHand taken] at returned
      cases returned
      exact invariant.solvent solvent.few
  | processPlayerAction playerId action amount =>
      cases taken
      exact solvent.process playerId action amount
  | advanceToNextPlayer =>
      cases taken
      unfold PokerGame.advanceToNextPlayer
      dsimp only
      split <;> exact ⟨solvent.few, solvent.chips, solvent.pot, solvent.served⟩
  | advanceToNextPhase =>
      obtain ⟨moved, returned⟩ := PokerGame.callStep_nextPhase taken
      exact solvent.nextPhase returned
  | conductShowdown =>
      obtain ⟨result, returned⟩ := PokerGame.callStep_showdown taken
      obtain ⟨chips, pot, size, deck, phase⟩ :=
        PokerGame.conductShowdown_nonneg solvent.chips solvent.pot returned
      exact ⟨size ▸ solvent.few, chips, pot, by rw [deck, phase]; exact solvent.served⟩

theorem Setup.solvent_game (setup : Setup) : Solvent setup.game :=
  ⟨setup.seats.2, setup.solvent, Int.le_refl 0,
    show 8 ≤ Deck.standard.length by decide⟩

/-- After any earlier play, a new hand starts, every sequence of betting calls on it runs
to its end, and the books balance in the state it reaches. -/
theorem hand_accounts_balance (setup : Setup) (earlier : List Call) (start : PokerGame)
    (shuffle : Shuffle) (calls : List Call)
    (played : Runs.run PokerGame.callStep setup.game earlier = some start)
    (betting : ∀ call ∈ calls, call.betting = true) :
    ∃ opened final, start.startNewHand shuffle = .ok opened ∧
      Runs.run PokerGame.callStep opened calls = some final ∧ HandAccounts start final := by
  have solvent : Solvent start :=
    Runs.run_invariant_always Solvent (fun game call next holds taken => Solvent.call holds taken)
      setup.solvent_game played
  obtain ⟨opened, returned, invariant⟩ := startNewHand_invariant shuffle solvent.few solvent.chips
  obtain ⟨final, reached, holds⟩ := invariant.run betting
  exact ⟨opened, final, returned, reached, holds.accounts⟩

def unevenSetup : Setup where
  smallBlind := 10
  bigBlind := 20
  players := [{ id := 7, chips := 100 }, { id := 0, chips := 5 }, { id := 2, chips := 80 }]
  button := 1
  seats := by decide
  distinct := by decide
  solvent := by decide
  blinds := by decide

theorem hand_accounts_balance_uneven :
    ∃ opened final, unevenSetup.game.startNewHand .unshuffled = .ok opened ∧
      Runs.run PokerGame.callStep opened
        [.processPlayerAction 2 .raise (-50), .processPlayerAction 2 .raise 30,
          .advanceToNextPlayer, .processPlayerAction 0 (.unknown "bluff") 3,
          .advanceToNextPhase] = some final ∧
      HandAccounts unevenSetup.game final :=
  hand_accounts_balance unevenSetup [] unevenSetup.game .unshuffled _ rfl (by simp [Call.betting])

end Holdem
