import Holdem.FletLoop
import Holdem.PotPaid
import Holdem.TableTotal

set_option autoImplicit false

namespace Holdem

/-! ### The claimed layers -/

/-- The layers up to a level hold of each contribution the part below that level. -/
theorem sum_claimed_layers {contribMap : List (Int × Int)} {showdownIds : List Int}
    {prev top : Int} {levels : List Int} (walk : Levels contribMap prev levels)
    (listed : top ≤ prev ∨ top ∈ levels)
    (claims : ∀ level ∈ levels, (contributorsAt contribMap level).any
      (fun playerId => decide (playerId ∈ showdownIds)) = decide (level ≤ top)) :
    ((potLayersFrom contribMap prev levels).map fun layer =>
        if layer.claimed showdownIds then layer.amount else 0).sum =
      (contribMap.map fun entry => max 0 (min entry.2 top - prev)).sum := by
  induction levels generalizing prev with
  | nil =>
      have low : top ≤ prev := listed.resolve_right (by simp)
      symm
      apply List.sum_eq_zero
      intro part member
      obtain ⟨entry, _, rfl⟩ := List.mem_map.mp member
      omega
  | cons level rest ih =>
      have above := walk.above level (by simp)
      have higher := (List.pairwise_cons.mp walk.increasing).1
      have here := claims level (by simp)
      have later : top ≤ level ∨ top ∈ rest := by
        rcases listed with low | among
        · exact Or.inl (by omega)
        · rcases List.mem_cons.mp among with same | further
          · exact Or.inl (Int.le_of_eq same)
          · exact Or.inr further
      rw [potLayersFrom_cons walk, List.map_cons, List.sum_cons,
        ih walk.tail later fun other member => claims other (List.mem_cons_of_mem _ member)]
      simp only [PotLayer.claimed, here, decide_eq_true_eq]
      by_cases claimed : level ≤ top
      · rw [if_pos claimed, layer_amount, ← List.sum_map_add]
        congr 1
        apply List.map_congr_left
        intro entry inside
        split
        · omega
        · rename_i short
          have := walk.below inside short
          omega
      · -- nothing from here on is claimed, so the top level was passed before
        have passed : top ≤ prev := by
          rcases listed with low | among
          · exact low
          · rcases List.mem_cons.mp among with same | further
            · omega
            · have := higher top further
              omega
        rw [if_neg claimed, Int.zero_add]
        congr 1
        apply List.map_congr_left
        intro entry _
        omega

namespace PokerGame

/-- The most any player still in the hand has put in. -/
def largestClaim (game : PokerGame) : Int :=
  (game.remainingPlayers.map Player.totalBetThisHand).foldr max 0

/-- What players have put in beyond the reach of everybody still in the hand. -/
def uncovered (game : PokerGame) : Int :=
  (game.players.map fun player => max 0 (player.totalBetThisHand - game.largestClaim)).sum

theorem le_largestClaim {game : PokerGame} {player : Player}
    (member : player ∈ game.remainingPlayers) : player.totalBetThisHand ≤ game.largestClaim :=
  List.le_max_of_le' 0 (List.mem_map_of_mem member) (le_refl _)

theorem largestClaim_attained (game : PokerGame) :
    game.largestClaim = 0 ∨
      ∃ player ∈ game.remainingPlayers, player.totalBetThisHand = game.largestClaim :=
  (Combinations.largest_spec 0 _).2.imp_right List.mem_map.mp

theorem largestClaim_nonneg (game : PokerGame) : 0 ≤ game.largestClaim :=
  (Combinations.largest_spec 0 _).1

/-- A layer is claimed exactly when its level is within the largest claim. -/
theorem claimed_level {game : PokerGame} (distinct : (game.players.map Player.id).Nodup)
    {level : Int} (positive : 0 < level) :
    (contributorsAt game.contributions level).any
        (fun playerId => decide (playerId ∈ game.remainingPlayers.map Player.id)) =
      decide (level ≤ game.largestClaim) := by
  rw [Bool.eq_iff_iff, List.any_eq_true, decide_eq_true_eq, contributions_eq distinct]
  constructor
  · rintro ⟨playerId, contributed, shown⟩
    obtain ⟨entry, reaches, rfl⟩ := List.mem_map.mp contributed
    obtain ⟨inside, high⟩ := List.mem_filter.mp reaches
    obtain ⟨payer, paid, rfl⟩ := List.mem_map.mp inside
    obtain ⟨player, remains, same⟩ := List.mem_map.mp (of_decide_eq_true shown)
    have equal : player = payer := List.inj_on_of_nodup_map distinct
      (List.mem_filter.mp remains).1 (List.mem_filter.mp paid).1 same
    subst equal
    exact Int.le_trans (of_decide_eq_true high) (le_largestClaim remains)
  · intro within
    rcases game.largestClaim_attained with zero | ⟨player, remains, same⟩
    · omega
    · have high : level ≤ player.totalBetThisHand := by omega
      have present := (List.mem_filter.mp remains).1
      refine ⟨player.id, ?_, by simpa using ⟨player, remains, rfl⟩⟩
      refine List.mem_map.mpr ⟨(player.id, player.totalBetThisHand), ?_, rfl⟩
      refine List.mem_filter.mpr ⟨List.mem_map.mpr ⟨player, ?_, rfl⟩, by simpa using high⟩
      exact List.mem_filter.mpr ⟨present, by simpa using Int.lt_of_lt_of_le positive high⟩

/-- The claimed layers hold everything but the uncovered part. -/
theorem sum_claimed {game : PokerGame} (distinct : (game.players.map Player.id).Nodup)
    (nonneg : ∀ player ∈ game.players, 0 ≤ player.totalBetThisHand) :
    ((buildPotLayers game.contributions).map fun layer =>
        if layer.claimed (game.remainingPlayers.map Player.id) then layer.amount else 0).sum +
      game.uncovered = (game.players.map Player.totalBetThisHand).sum := by
  have positive := game.contributions_pos
  have walk := levels_uniqueLevels positive
  have top := game.largestClaim_nonneg
  have listed : game.largestClaim ≤ 0 ∨
      game.largestClaim ∈ uniqueLevels game.contributions := by
    rcases game.largestClaim_attained with zero | ⟨player, remains, same⟩
    · exact Or.inl (Int.le_of_eq zero)
    · by_cases paid : 0 < player.totalBetThisHand
      · have inside : (player.id, player.totalBetThisHand) ∈ game.contributions := by
          rw [contributions_eq distinct]
          refine List.mem_map.mpr ⟨player, List.mem_filter.mpr ⟨?_, by simpa using paid⟩, rfl⟩
          exact (List.mem_filter.mp remains).1
        rw [← same]
        exact Or.inr ((walk.covers _ inside).resolve_left (by simpa using paid))
      · exact Or.inl (by omega)
  have layers := sum_claimed_layers walk listed fun level member =>
    claimed_level distinct (walk.above level member)
  have parts : (game.contributions.map fun entry =>
      max 0 (min entry.2 game.largestClaim - 0)).sum =
        (game.players.map fun player => min player.totalBetThisHand game.largestClaim).sum := by
    rw [contributions_eq distinct, List.map_map]
    have dropped : ∀ players : List Player, (∀ player ∈ players, 0 ≤ player.totalBetThisHand) →
        ((players.filter fun player => decide (0 < player.totalBetThisHand)).map
            ((fun entry : Int × Int => max 0 (min entry.2 game.largestClaim - 0)) ∘
              fun player => (player.id, player.totalBetThisHand))).sum =
          (players.map fun player => min player.totalBetThisHand game.largestClaim).sum := by
      intro players
      induction players with
      | nil => exact fun _ => rfl
      | cons player rest ih =>
          intro bounds
          have here := bounds player (by simp)
          have later := ih fun other member => bounds other (List.mem_cons_of_mem _ member)
          rw [List.filter_cons, List.map_cons, List.sum_cons, ← later]
          split
          · rw [List.map_cons, List.sum_cons, Function.comp_apply]
            dsimp only
            omega
          · rename_i unpaid
            have zero : ¬ 0 < player.totalBetThisHand := by simpa using unpaid
            omega
    exact dropped game.players nonneg
  unfold buildPotLayers
  rw [layers, parts, uncovered, ← List.sum_map_add]
  congr 1
  apply List.map_congr_left
  intro player _
  omega

theorem uncovered_nonneg (game : PokerGame) : 0 ≤ game.uncovered := by
  refine List.sum_nonneg ?_
  intro part member
  obtain ⟨player, _, rfl⟩ := List.mem_map.mp member
  exact Int.le_max_left _ _

/-- What a showdown hands to nobody. A lone player left is given the whole pot. -/
def lostAtShowdown (game : PokerGame) : Int :=
  if game.remainingPlayers.length = 1 then 0 else game.uncovered

/-- A showdown moves the pot to the stacks, less what it loses. -/
theorem conductShowdown_stackTotal {game next : PokerGame} {result : ShowdownResult}
    (distinct : (game.players.map Player.id).Nodup)
    (nonneg : ∀ player ∈ game.players, 0 ≤ player.totalBetThisHand)
    (pot : game.pot = (game.players.map Player.totalBetThisHand).sum)
    (returned : game.conductShowdown = .ok (next, result)) :
    next.stackTotal + game.lostAtShowdown = game.stackTotal + game.pot := by
  unfold lostAtShowdown
  rcases listed : game.remainingPlayers with _ | ⟨winner, _ | ⟨second, rest⟩⟩
  · simp only [conductShowdown, listed, Except.ok.injEq, Prod.mk.injEq] at returned
    have everything : game.uncovered = game.pot := by
      unfold uncovered largestClaim
      rw [listed, pot]
      congr 1
      apply List.map_congr_left
      intro player member
      have := nonneg player member
      simp only [List.map_nil, List.foldr_nil]
      omega
    rw [← returned.1, if_neg (by simp), everything]
    rfl
  · simp only [conductShowdown, listed, Except.ok.injEq, Prod.mk.injEq] at returned
    rw [← returned.1, if_pos (by simp), Int.add_zero]
    exact stacks_won_by_default game.pot listed
  · have several : 2 ≤ game.remainingPlayers.length := by simp [listed]
    obtain ⟨hands, shown, paid⟩ := conductShowdown_contested returned several
    obtain ⟨_, won, _⟩ :=
      distributeLayers_spec (shown_lookup distinct shown) (buildPotLayers game.contributions)
    have won : (game.settled hands).won = _ := won
    have claimed := sum_claimed distinct nonneg
    have credited := contestedShowdown_stacks distinct shown
    have same : next = (game.contestedShowdown hands).1 := congrArg Prod.fst paid
    rw [if_neg (by simp), same]
    unfold stackTotal
    rw [credited, won, pot]
    omega

end PokerGame

theorem PokerGame.stackTotal_nonneg {game : PokerGame}
    (nonneg : ∀ player ∈ game.players, 0 ≤ player.chips) : 0 ≤ game.stackTotal := by
  refine List.sum_nonneg ?_
  intro chips member
  obtain ⟨player, inside, rfl⟩ := List.mem_map.mp member
  exact nonneg player inside

/-! ### Whole runs -/

/-- The chips at the table: in a hand the pot is part of them, between hands what is left of
it is wiped out by the next deal. -/
def DriverState.chipsInPlay (state : DriverState) : Int :=
  if state.stage = .inHand then state.game.stackTotal + state.game.pot else state.game.stackTotal

def chipsLost (state : DriverState) : DriverEvent → Int
  | .showdown => state.game.lostAtShowdown
  | _ => 0

theorem InPlay.total {game : PokerGame} (inPlay : InPlay game) :
    (∀ player ∈ game.players, 0 ≤ player.totalBetThisHand) ∧
      game.pot = (game.players.map Player.totalBetThisHand).sum := by
  obtain ⟨start, invariant⟩ := inPlay.books
  refine ⟨?_, invariant.accounts.pot⟩
  intro player member
  obtain ⟨_, bet, total⟩ := inPlay.bounds player member
  omega

theorem HandAccounts.total {start game : PokerGame} (accounts : HandAccounts start game) :
    game.stackTotal + game.pot = start.stackTotal := by
  unfold PokerGame.stackTotal
  rw [← accounts.stakes, accounts.pot, ← List.sum_map_add]
  rfl

theorem nextPhase_stays {state next : DriverState}
    (taken : driverStep state .nextPhase = some next) :
    next.stage = .inHand := by
  obtain ⟨_, playing, complete, moved, returned, stage⟩ := driverStep_nextPhase taken
  rw [stage, (PokerGame.nextPhase_moves playing complete returned).1]
  rfl

theorem Reached.chipsInPlay {table : Table} {state next : DriverState} {event : DriverEvent}
    (reached : Reached table state) (taken : driverStep state event = some next) :
    next.chipsInPlay + chipsLost state event = state.chipsInPlay := by
  unfold DriverState.chipsInPlay
  cases event with
  | newHand shuffle =>
      obtain ⟨stage, opened, button, hand⟩ := reached.opened taken
      have total := (hand.accounts reached.solvent.chips).total
      simp only [stage, opened, chipsLost, reduceCtorEq, ↓reduceIte]
      omega
  | skip =>
      obtain ⟨stage, _, _, _, rfl⟩ := driverStep_skip taken
      obtain ⟨seat, complete, frame⟩ := state.game.advance_frame
      rw [frame]
      simp [stage, chipsLost, PokerGame.stackTotal]
  | decide decision =>
      obtain ⟨stage, _, _, player, action, amount, done, turn, performed, rfl, _⟩ :=
        reached.decided taken
      obtain ⟨start, before⟩ := (reached.inPlay stage).books
      have after := before.process player.id action amount
      rw [PokerGame.process_of_turn reached.seated turn, performed] at after
      have kept := after.accounts.total.trans before.accounts.total.symm
      simp only [stage, chipsLost, ↓reduceIte, Int.add_zero]
      exact kept
  | nextPhase =>
      have opened := nextPhase_stays taken
      obtain ⟨stage, _, _, moved, returned, _⟩ := driverStep_nextPhase taken
      obtain ⟨start, before⟩ := (reached.inPlay stage).books
      obtain ⟨_, other, same, after⟩ := before.nextPhase
      rw [returned, Except.ok.injEq, Prod.mk.injEq] at same
      have kept := after.accounts.total.trans before.accounts.total.symm
      rw [← same.2] at kept
      simp only [stage, opened, chipsLost, ↓reduceIte, Int.add_zero]
      exact kept
  | showdown =>
      obtain ⟨stage, _, result, returned, after⟩ := driverStep_showdown taken
      obtain ⟨nonneg, pot⟩ := (reached.inPlay stage).total
      have total := PokerGame.conductShowdown_stackTotal reached.seated.distinct nonneg pot returned
      simp only [stage, after, chipsLost, reduceCtorEq, ↓reduceIte]
      exact total

theorem chipsLost_nonneg (state : DriverState) (event : DriverEvent) :
    0 ≤ chipsLost state event := by
  cases event with
  | showdown =>
      change 0 ≤ state.game.lostAtShowdown
      unfold PokerGame.lostAtShowdown
      split
      · exact Int.le_refl 0
      · exact state.game.uncovered_nonneg
  | newHand shuffle => exact Int.le_refl 0
  | skip => exact Int.le_refl 0
  | decide decision => exact Int.le_refl 0
  | nextPhase => exact Int.le_refl 0

theorem chipsInPlay_spent {table : Table} {events : List DriverEvent} {state : DriverState}
    (played : Runs.run driverStep table.start events = some state) :
    state.chipsInPlay + Runs.spent driverStep chipsLost table.start events = table.chips.sum := by
  have books : state.chipsInPlay + Runs.spent driverStep chipsLost table.start events =
      table.start.chipsInPlay := Runs.run_spent (Reached table) DriverState.chipsInPlay chipsLost
    (fun _ _ _ holds taken => holds.step taken) (fun _ _ _ holds taken => holds.chipsInPlay taken)
    table.reached_start played
  have before : table.start.chipsInPlay = table.chips.sum := by
    have same : (table.chips.mapIdx fun seat stack =>
        ({ id := seat, chips := stack } : Player)).map Player.chips = table.chips := by
      apply List.ext_getElem <;> simp
    exact congrArg List.sum same
  rw [books, before]

theorem chipsInPlay_le {table : Table} {events : List DriverEvent} {state : DriverState}
    (played : Runs.run driverStep table.start events = some state) :
    state.chipsInPlay ≤ table.chips.sum := by
  have books := chipsInPlay_spent played
  have lost : 0 ≤ Runs.spent driverStep chipsLost table.start events :=
    Runs.spent_nonneg chipsLost_nonneg _ _
  omega

/-- The chips of a table are its first stacks less what its showdowns have lost: nothing
else takes chips away, and nothing brings any in. -/
theorem chips_accounted (table : Table) (events : List DriverEvent) (state : DriverState)
    (played : Runs.run driverStep table.start events = some state) :
    state.chipsInPlay + Runs.spent driverStep chipsLost table.start events = table.chips.sum ∧
      state.chipsInPlay ≤ table.chips.sum :=
  ⟨chipsInPlay_spent played, chipsInPlay_le played⟩

/-- The deep stack bets 60, folds on the flop, and 30 of these chips go to nobody. -/
theorem chips_accounted_unmatched :
    ∃ state, Runs.run driverStep deepAndShort.start
        (allInForLess ++ [.decide ⟨.fold, 0⟩, .nextPhase, .nextPhase, .nextPhase, .showdown]) =
          some state ∧
      state.chipsInPlay = 130 := by
  have played : ∃ state, Runs.run driverStep deepAndShort.start
      (allInForLess ++ [.decide ⟨.fold, 0⟩, .nextPhase, .nextPhase, .nextPhase, .showdown]) =
        some state := ⟨_, rfl⟩
  have lost : Runs.spent driverStep chipsLost deepAndShort.start
      (allInForLess ++ [.decide ⟨.fold, 0⟩, .nextPhase, .nextPhase, .nextPhase, .showdown]) =
        30 := rfl
  have brought : deepAndShort.chips.sum = 160 := rfl
  obtain ⟨state, reached⟩ := played
  have books := (chips_accounted deepAndShort _ state reached).1
  exact ⟨state, reached, by omega⟩

end Holdem
