import Holdem.PotPaid
import Holdem.SidePots
import Mathlib.Data.List.Rotate

set_option autoImplicit false

/- What two players with equal hands and equal bets are paid, and who is paid more than his own
uncalled bet. -/
namespace Holdem

/-! ### Two winners of one layer -/

theorem sharesOf_at (amount : Int) (winners start : Nat) {ids : List Int} (distinct : ids.Nodup)
    {position : Nat} (inside : position < ids.length) :
    sharesOf amount winners ids[position] start ids = shareAt amount winners (start + position) := by
  induction ids generalizing start position with
  | nil => cases inside
  | cons winner rest ih =>
      obtain ⟨apart, others⟩ := List.nodup_cons.mp distinct
      rw [sharesOf]
      cases position with
      | zero =>
          rw [List.getElem_cons_zero, if_pos rfl, sharesOf_absent _ _ _ apart]
          simp
      | succ position =>
          have within : position < rest.length := by simpa using inside
          rw [List.getElem_cons_succ, if_neg, ih (start + 1) others within, Int.zero_add]
          · congr 1
            omega
          · intro same
            exact apart (same ▸ List.getElem_mem within)

/-- An earlier winner gets at most one chip more than a later one, and none if the amount
divides evenly. -/
theorem shareAt_order (amount : Int) (winners : Nat) {earlier later : Nat}
    (order : earlier ≤ later) :
    shareAt amount winners later ≤ shareAt amount winners earlier ∧
      shareAt amount winners earlier ≤ shareAt amount winners later +
        if amount % winners = 0 then 0 else 1 := by
  unfold shareAt
  split <;> split <;> split <;> omega

section Layers

variable {handsById : List (Int × HandResult)} {showdownIds : List Int} {layer : PotLayer}

theorem PotLayer.winners_increasing (handsById : List (Int × HandResult))
    (showdownIds : List Int) {layer : PotLayer} (distinct : layer.contributors.Nodup) :
    (layer.winners handsById showdownIds).Pairwise (· < ·) := by
  have sorted : (layer.winners handsById showdownIds).Pairwise (· ≤ ·) :=
    List.pairwise_insertionSort _ _
  have listed := (bestSoFar_determineWinnerIds handsById (layer.eligible showdownIds)).listed
  have apart : (layer.winners handsById showdownIds).Nodup :=
    (List.perm_insertionSort _ _).nodup_iff.mpr
      (distinct.sublist (listed.trans List.filter_sublist))
  exact (sorted.and apart).imp fun both => lt_of_le_of_ne both.1 both.2

/-- The player wins a layer whose amount its winners cannot split evenly. -/
def PotLayer.splitsUnevenly (handsById : List (Int × HandResult)) (showdownIds : List Int)
    (playerId : Int) (layer : PotLayer) : Bool :=
  decide (playerId ∈ layer.winners handsById showdownIds) &&
    decide (layer.amount % (layer.winners handsById showdownIds).length ≠ 0)

theorem PotLayer.award_order (distinct : layer.contributors.Nodup) {first second : Int}
    (order : first < second) (alike : first ∈ layer.winners handsById showdownIds ↔
      second ∈ layer.winners handsById showdownIds) :
    layer.award handsById showdownIds second ≤ layer.award handsById showdownIds first ∧
      layer.award handsById showdownIds first ≤ layer.award handsById showdownIds second +
        if layer.splitsUnevenly handsById showdownIds first then 1 else 0 := by
  by_cases won : first ∈ layer.winners handsById showdownIds
  · have sorted := PotLayer.winners_increasing handsById showdownIds distinct
    have increasing := List.pairwise_iff_getElem.mp sorted
    have apart := sorted.imp fun below => ne_of_lt below
    obtain ⟨earlier, inside, rfl⟩ := List.getElem_of_mem won
    obtain ⟨later, within, rfl⟩ := List.getElem_of_mem (alike.mp won)
    have before : earlier ≤ later := by
      by_contra after
      have above := increasing later earlier within inside (by omega)
      omega
    obtain ⟨low, high⟩ := shareAt_order layer.amount
      (layer.winners handsById showdownIds).length before
    unfold PotLayer.award PotLayer.splitsUnevenly
    rw [sharesOf_at _ _ _ apart inside, sharesOf_at _ _ _ apart within, Nat.zero_add, Nat.zero_add]
    refine ⟨low, high.trans ?_⟩
    by_cases even : layer.amount % (layer.winners handsById showdownIds).length = 0
    · simp [even]
    · simp [even]
  · unfold PotLayer.award
    rw [sharesOf_absent _ _ _ won, sharesOf_absent _ _ _ (mt alike.mpr won)]
    split <;> omega

end Layers

theorem sum_le_sum_add_count {α : Type} (items : List α) {left right : α → Int} {test : α → Bool}
    (each : ∀ item ∈ items, left item ≤ right item + if test item then 1 else 0) :
    (items.map left).sum ≤ (items.map right).sum + (items.filter test).length := by
  induction items with
  | nil => simp
  | cons item rest ih =>
      have here := each item (by simp)
      have later := ih fun other member => each other (List.mem_cons_of_mem _ member)
      simp only [List.map_cons, List.sum_cons]
      by_cases counted : test item = true
      · rw [List.filter_cons_of_pos counted, List.length_cons]
        rw [if_pos counted] at here
        push_cast
        omega
      · rw [List.filter_cons_of_neg counted]
        rw [if_neg counted] at here
        omega

namespace PokerGame

variable {game : PokerGame}

theorem layer_nodup (distinct : (game.players.map Player.id).Nodup) {layer : PotLayer}
    (member : layer ∈ buildPotLayers game.contributions) : layer.contributors.Nodup := by
  obtain ⟨_, level, _, same⟩ :=
    (mem_potLayersFrom (levels_uniqueLevels game.contributions_pos)).1 layer member
  rw [same]
  exact contributorsAt_nodup (contributions_nodup distinct) level

def unevenLayers (game : PokerGame) (hands : List PlayerHand) (playerId : Int) : List PotLayer :=
  (buildPotLayers game.contributions).filter
    (PotLayer.splitsUnevenly (handsShown hands) (game.remainingPlayers.map Player.id) playerId)

/-- With equal hands and equal bets the lower id is paid as much, and at most one chip more for
each of the layers it wins that are not split evenly. -/
theorem awardTo_order (distinct : (game.players.map Player.id).Nodup) {hands : List PlayerHand}
    {first second : Player} (firstIn : first ∈ game.remainingPlayers)
    (secondIn : second ∈ game.remainingPlayers) (order : first.id < second.id)
    (bets : first.totalBetThisHand = second.totalBetThisHand)
    (equal : rated ((handsShown hands).lookup first.id) =
      rated ((handsShown hands).lookup second.id)) :
    game.awardTo hands second.id ≤ game.awardTo hands first.id ∧
      game.awardTo hands first.id ≤ game.awardTo hands second.id +
        (game.unevenLayers hands first.id).length := by
  have layers : ∀ layer ∈ buildPotLayers game.contributions,
      layer.award (handsShown hands) (game.remainingPlayers.map Player.id) second.id ≤
        layer.award (handsShown hands) (game.remainingPlayers.map Player.id) first.id ∧
      layer.award (handsShown hands) (game.remainingPlayers.map Player.id) first.id ≤
        layer.award (handsShown hands) (game.remainingPlayers.map Player.id) second.id +
          if layer.splitsUnevenly (handsShown hands) (game.remainingPlayers.map Player.id)
            first.id then 1 else 0 := by
    intro layer member
    obtain ⟨level, _, contributed⟩ := buildPotLayers_contributors distinct member
    have paid : first.id ∈ layer.contributors ↔ second.id ∈ layer.contributors := by
      rw [contributed first (List.mem_filter.mp firstIn).1,
        contributed second (List.mem_filter.mp secondIn).1, bets]
    have eligible : first.id ∈ layer.eligible (game.remainingPlayers.map Player.id) ↔
        second.id ∈ layer.eligible (game.remainingPlayers.map Player.id) := by
      unfold PotLayer.eligible
      rw [List.mem_filter, List.mem_filter, paid]
      simp [List.mem_map_of_mem firstIn, List.mem_map_of_mem secondIn]
    apply PotLayer.award_order (layer_nodup distinct member) order
    rw [PotLayer.mem_winners, PotLayer.mem_winners, eligible, equal]
  exact ⟨List.sum_le_sum fun layer member => (layers layer member).1,
    sum_le_sum_add_count _ fun layer member => (layers layer member).2⟩

end PokerGame

/-- In every showdown of two or more players of a driver run, two players with equal hands and
equal bets are paid the same but for one chip for each layer that is not split evenly, and the
lower id has these chips. -/
theorem equal_hands_paid_alike (table : Table) (events : List DriverEvent) (state : DriverState)
    (played : Runs.run driverStep table.start events = some state) (stage : state.stage = .inHand)
    (contested : 2 ≤ state.game.remainingPlayers.length) :
    ∃ hands next result,
      PokerGame.evaluatePlayers state.game.communityCards state.game.remainingPlayers =
        .ok hands ∧
      state.game.conductShowdown = .ok (next, result) ∧
      ∀ first ∈ state.game.remainingPlayers, ∀ second ∈ state.game.remainingPlayers,
        first.id < second.id → first.totalBetThisHand = second.totalBetThisHand →
        (∀ mine theirs, evaluateHand first.holeCards state.game.communityCards = .ok mine →
          evaluateHand second.holeCards state.game.communityCards = .ok theirs →
          mine.rank = theirs.rank ∧ mine.kickers = theirs.kickers) →
        result.winningsOf second.id ≤ result.winningsOf first.id ∧
          result.winningsOf first.id ≤ result.winningsOf second.id +
            (state.game.unevenLayers hands first.id).length := by
  have reached := table.reached played
  obtain ⟨next, result, returned, _⟩ :=
    (reached.inPlay stage).showdown_pays reached.seated contested
  have distinct := reached.seated.distinct
  obtain ⟨hands, evaluated, paid⟩ := PokerGame.conductShowdown_evaluated returned contested
  obtain ⟨_, awards⟩ := PokerGame.contestedShowdown_awards distinct
    (PokerGame.evaluatePlayers_players evaluated)
  rw [← paid] at awards
  refine ⟨hands, next, result, evaluated, returned, ?_⟩
  intro first firstIn second secondIn order bets alike
  obtain ⟨mine, returnedMine, ratedMine⟩ :=
    PokerGame.rated_handsShown distinct evaluated firstIn
  obtain ⟨theirs, returnedTheirs, ratedTheirs⟩ :=
    PokerGame.rated_handsShown distinct evaluated secondIn
  obtain ⟨rank, kickers⟩ := alike mine theirs returnedMine returnedTheirs
  rw [awards, awards]
  apply PokerGame.awardTo_order distinct firstIn secondIn order bets
  rw [ratedMine, ratedTheirs, HandResult.worth, HandResult.worth, rank, kickers]

def fiveHanded : Table := ⟨5, 10, [45, 100, 100, 100, 45], 4, by decide, by decide, by decide,
  by decide⟩

/-- A deck that puts a flush of spades on the board, higher than every hole card. -/
def spadesShuffle : Shuffle := ⟨Deck.standard.rotate 34, List.rotate_perm _ _⟩

def threeFolds : List DriverEvent :=
  [.newHand spadesShuffle, .decide ⟨.raise, 15⟩, .decide ⟨.allIn, 0⟩, .decide ⟨.allIn, 0⟩,
    .decide ⟨.fold, 0⟩, .decide ⟨.fold, 0⟩, .decide ⟨.fold, 0⟩, .nextPhase, .nextPhase,
    .nextPhase, .nextPhase]

theorem ok_of_toOption {ε α : Type} {outcome : Except ε α} {value : α}
    (found : outcome.toOption = some value) : outcome = .ok value := by
  cases outcome with
  | error raised => cases found
  | ok returned =>
      cases found
      rfl

/-- Both play the board for equal bets. -/
theorem threeFolds_showdown :
    ∃ state next result first second mine theirs,
      Runs.run driverStep fiveHanded.start threeFolds = some state ∧
      state.stage = .inHand ∧ state.game.currentPhase = .showdown ∧
      state.game.conductShowdown = .ok (next, result) ∧
      first ∈ state.game.remainingPlayers ∧ second ∈ state.game.remainingPlayers ∧
      first.id < second.id ∧ evaluateHand first.holeCards state.game.communityCards = .ok mine ∧
      evaluateHand second.holeCards state.game.communityCards = .ok theirs ∧
      mine.rank = theirs.rank ∧ mine.kickers = theirs.kickers ∧
      first.totalBetThisHand = second.totalBetThisHand ∧
      result.winningsOf first.id = 66 ∧ result.winningsOf second.id = 64 := by
  have tested : ((Runs.run driverStep fiveHanded.start threeFolds).any fun state =>
      decide (state.stage = .inHand ∧ state.game.currentPhase = .showdown) &&
        state.game.conductShowdown.toOption.any fun settled =>
          state.game.remainingPlayers.any fun first =>
            state.game.remainingPlayers.any fun second =>
              (evaluateHand first.holeCards state.game.communityCards).toOption.any fun mine =>
                (evaluateHand second.holeCards state.game.communityCards).toOption.any fun theirs =>
                  decide (first.id < second.id ∧ mine.rank = theirs.rank ∧
                    mine.kickers = theirs.kickers ∧
                    first.totalBetThisHand = second.totalBetThisHand ∧
                    settled.2.winningsOf first.id = 66 ∧
                    settled.2.winningsOf second.id = 64)) = true := by decide
  obtain ⟨state, played, tested⟩ := Option.any_eq_true _ _ |>.mp tested
  rw [Bool.and_eq_true, decide_eq_true_iff] at tested
  obtain ⟨⟨stage, phase⟩, tested⟩ := tested
  obtain ⟨settled, returned, tested⟩ := Option.any_eq_true _ _ |>.mp tested
  obtain ⟨first, firstIn, tested⟩ := List.any_eq_true.mp tested
  obtain ⟨second, secondIn, tested⟩ := List.any_eq_true.mp tested
  obtain ⟨mine, returnedMine, tested⟩ := Option.any_eq_true _ _ |>.mp tested
  obtain ⟨theirs, returnedTheirs, tested⟩ := Option.any_eq_true _ _ |>.mp tested
  obtain ⟨order, rank, kickers, bets, won, lost⟩ := of_decide_eq_true tested
  exact ⟨state, settled.1, settled.2, first, second, mine, theirs, played, stage, phase,
    ok_of_toOption returned, firstIn, secondIn, order, ok_of_toOption returnedMine,
    ok_of_toOption returnedTheirs, rank, kickers, bets, won, lost⟩

/-- One of the two is paid two chips more. -/
theorem equal_hands_two_chips_apart :
    ∃ state next result first second mine theirs,
      Runs.run driverStep fiveHanded.start threeFolds = some state ∧
      state.game.currentPhase = .showdown ∧
      state.game.conductShowdown = .ok (next, result) ∧
      first ∈ state.game.remainingPlayers ∧ second ∈ state.game.remainingPlayers ∧
      evaluateHand first.holeCards state.game.communityCards = .ok mine ∧
      evaluateHand second.holeCards state.game.communityCards = .ok theirs ∧
      mine.rank = theirs.rank ∧ mine.kickers = theirs.kickers ∧
      first.totalBetThisHand = second.totalBetThisHand ∧
      result.winningsOf first.id = result.winningsOf second.id + 2 := by
  obtain ⟨state, next, result, first, second, mine, theirs, played, _, phase, returned, firstIn,
    secondIn, _, returnedMine, returnedTheirs, rank, kickers, bets, won, lost⟩ := threeFolds_showdown
  exact ⟨state, next, result, first, second, mine, theirs, played, phase, returned, firstIn,
    secondIn, returnedMine, returnedTheirs, rank, kickers, bets, by omega⟩

theorem equal_hands_paid_alike_board :
    ∃ state hands next result, ∃ first second : Player,
      Runs.run driverStep fiveHanded.start threeFolds = some state ∧
      state.game.conductShowdown = .ok (next, result) ∧ first ≠ second ∧
      first.totalBetThisHand = second.totalBetThisHand ∧
      result.winningsOf second.id ≤ result.winningsOf first.id ∧
      result.winningsOf first.id ≤
        result.winningsOf second.id + (state.game.unevenLayers hands first.id).length := by
  obtain ⟨state, _, _, first, second, mine, theirs, played, stage, _, _, firstIn, secondIn, order,
    returnedMine, returnedTheirs, rank, kickers, bets, _⟩ := threeFolds_showdown
  have contested : 2 ≤ state.game.remainingPlayers.length := by
    have apart : [first, second].Nodup := by
      rw [List.nodup_cons, List.mem_singleton]
      refine ⟨?_, List.nodup_singleton second⟩
      rintro rfl
      exact absurd order (lt_irrefl _)
    have both : [first, second] ⊆ state.game.remainingPlayers := by simp [firstIn, secondIn]
    exact (List.subperm_of_subset apart both).length_le
  obtain ⟨hands, next, result, _, returned, alike⟩ :=
    equal_hands_paid_alike fiveHanded _ state played stage contested
  have paid := alike first firstIn second secondIn order bets (by
    intro mine' theirs' sameMine sameTheirs
    rw [returnedMine, Except.ok.injEq] at sameMine
    rw [returnedTheirs, Except.ok.injEq] at sameTheirs
    rw [← sameMine, ← sameTheirs]
    exact ⟨rank, kickers⟩)
  refine ⟨state, hands, next, result, first, second, played, returned, ?_, bets, paid⟩
  rintro rfl
  exact absurd order (lt_irrefl _)

end Holdem
