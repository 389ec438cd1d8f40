import Holdem.SettledHands

set_option autoImplicit false

namespace Holdem

namespace PokerGame

def tableTotal (game : PokerGame) : Int := game.stackTotal + game.pot

theorem stacks_won_by_default {players : List Player} {winner : Player} (amount : Int)
    (alone : (players.filter fun player => player.status.remains) = [winner]) :
    ((players.map fun player =>
        if player.status.remains then { player with chips := player.chips + amount }
        else player).map Player.chips).sum = (players.map Player.chips).sum + amount := by
  have split : ∀ players : List Player,
      ((players.map fun player =>
          if player.status.remains then { player with chips := player.chips + amount }
          else player).map Player.chips).sum =
        (players.map Player.chips).sum +
          amount * (players.filter fun player => player.status.remains).length := by
    intro players
    induction players with
    | nil => simp
    | cons player rest ih =>
        simp only [List.map_cons, List.sum_cons, List.filter_cons, ih]
        split
        · simp only [List.length_cons]
          push_cast
          ring
        · omega
  rw [split players, alone]
  simp

/-- What a showdown does to the chips of the table: an uncontested one counts the pot
twice, any other keeps the total. -/
theorem conductShowdown_tableTotal {game next : PokerGame} {result : ShowdownResult}
    (distinct : (game.players.map Player.id).Nodup)
    (nonneg : ∀ player ∈ game.players, 0 ≤ player.totalBetThisHand)
    (pot : game.pot = (game.players.map Player.totalBetThisHand).sum)
    (returned : game.conductShowdown = .ok (next, result)) :
    next.tableTotal =
      game.tableTotal + if game.remainingPlayers.length = 1 then game.pot else 0 := by
  rcases listed : game.remainingPlayers with _ | ⟨winner, _ | ⟨second, rest⟩⟩
  · simp only [conductShowdown, listed, Except.ok.injEq, Prod.mk.injEq] at returned
    rw [← returned.1]
    simp [tableTotal, stackTotal]
  · simp only [conductShowdown, listed, Except.ok.injEq, Prod.mk.injEq] at returned
    rw [← returned.1]
    have credited := stacks_won_by_default game.pot listed
    rw [if_pos (show [winner].length = 1 from rfl)]
    unfold tableTotal stackTotal
    rw [credited]
  · have several : 2 ≤ game.remainingPlayers.length := by simp [listed]
    obtain ⟨hands, shown, paid⟩ := conductShowdown_contested returned several
    have someone : game.remainingPlayers ≠ [] := List.ne_nil_of_length_pos (by omega)
    obtain ⟨_, _, winners⟩ :=
      distributeLayers_spec (shown_lookup distinct shown) (buildPotLayers game.contributions)
    obtain ⟨left, _⟩ := contestedShowdown_pays distinct nonneg pot someone shown
    rw [contestedShowdown_paid winners] at left
    have paidOut := contestedShowdown_stacks distinct shown
    have same : next = (game.contestedShowdown hands).1 := congrArg Prod.fst paid
    rw [if_neg (by simp), same]
    unfold tableTotal stackTotal
    rw [paidOut, left]
    omega

end PokerGame

/-- The showdown of a hand of a driver run returns, and the table keeps its chips exactly when
the hand is not won uncontested or there is nothing in the pot. -/
theorem showdown_keeps_chips_iff (table : Table) (events : List DriverEvent) (state : DriverState)
    (played : Runs.run driverStep table.start events = some state)
    (stage : state.stage = .inHand) :
    ∃ next result, state.game.conductShowdown = .ok (next, result) ∧
      (next.tableTotal = state.game.tableTotal ↔
        state.game.remainingPlayers.length ≠ 1 ∨ state.game.pot = 0) := by
  have reached := table.reached played
  have inPlay := reached.inPlay stage
  obtain ⟨start, invariant⟩ := inPlay.books
  have nonneg : ∀ player ∈ state.game.players, 0 ≤ player.totalBetThisHand := by
    intro player member
    obtain ⟨_, bet, total⟩ := inPlay.bounds player member
    omega
  have held : ∀ player ∈ state.game.remainingPlayers, player.holeCards ≠ [] := by
    intro player member
    obtain ⟨inside, remains⟩ := List.mem_filter.mp member
    exact inPlay.cards player inside remains
  obtain ⟨⟨next, result⟩, returned⟩ := PokerGame.conductShowdown_returns held
  refine ⟨next, result, returned, ?_⟩
  have total := PokerGame.conductShowdown_tableTotal reached.seated.distinct nonneg
    invariant.accounts.pot returned
  by_cases alone : state.game.remainingPlayers.length = 1
  · rw [if_pos alone] at total
    omega
  · rw [if_neg alone] at total
    omega

/-- The small blind folds; the big blind gets the 30 chips that also stay in the pot. -/
theorem uncontested_pot_counted_twice :
    ∃ state next result, Runs.run driverStep headsUp.start
        [.newHand .unshuffled, .decide ⟨.fold, 0⟩, .nextPhase] = some state ∧
      state.stage = .inHand ∧ state.game.currentPhase = .showdown ∧
      state.game.conductShowdown = .ok (next, result) ∧
      state.game.tableTotal = 200 ∧ next.tableTotal = 230 :=
  ⟨_, _, _, rfl, rfl, rfl, rfl, by decide, by decide⟩

theorem showdown_keeps_chips_all_in :
    ∃ state, Runs.run driverStep headsUp.start
        [.newHand .unshuffled, .decide ⟨.allIn, 0⟩, .decide ⟨.allIn, 0⟩, .nextPhase, .nextPhase,
          .nextPhase, .nextPhase] = some state ∧
      state.game.currentPhase = .showdown ∧
      ∃ next result, state.game.conductShowdown = .ok (next, result) ∧
        next.tableTotal = state.game.tableTotal := by
  have reached : ∃ state, Runs.run driverStep headsUp.start
        [.newHand .unshuffled, .decide ⟨.allIn, 0⟩, .decide ⟨.allIn, 0⟩, .nextPhase, .nextPhase,
          .nextPhase, .nextPhase] = some state ∧
      state.game.currentPhase = .showdown ∧ state.stage = .inHand ∧
      state.game.remainingPlayers.length ≠ 1 := ⟨_, rfl, rfl, rfl, by decide⟩
  obtain ⟨state, played, shown, stage, contested⟩ := reached
  obtain ⟨next, result, returned, keeps⟩ := showdown_keeps_chips_iff headsUp _ state played stage
  exact ⟨state, played, shown, next, result, returned, keeps.mpr (Or.inl contested)⟩

end Holdem
