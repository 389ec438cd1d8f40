import Holdem.BetLevel

set_option autoImplicit false

namespace Holdem

/-! ### The showdown of a state in play -/

/-- A contested showdown of a hand in play returns, and it pays out the whole pot exactly
when a player still in has put in as much as anyone. -/
theorem InPlay.showdown_pays {table : Table} {game : PokerGame} (inPlay : InPlay game)
    (seated : Seated table game) (contested : 2 ≤ game.remainingPlayers.length) :
    ∃ next result, game.conductShowdown = .ok (next, result) ∧
      ((result.paid = game.pot ∧ next.pot = 0) ↔ game.TopClaimed) := by
  obtain ⟨start, invariant⟩ := inPlay.books
  have nonneg : ∀ player ∈ game.players, 0 ≤ player.totalBetThisHand := by
    intro player member
    obtain ⟨_, bet, total⟩ := inPlay.bounds player member
    omega
  have held : ∀ player ∈ game.remainingPlayers, player.holeCards ≠ [] := by
    intro player member
    obtain ⟨inside, remains⟩ := List.mem_filter.mp member
    exact inPlay.cards player inside remains
  obtain ⟨hands, evaluated, shown⟩ :=
    PokerGame.evaluatePlayers_ok game.communityCards held
  have someone : game.remainingPlayers ≠ [] := List.ne_nil_of_length_pos (by omega)
  obtain ⟨left, exactly⟩ := PokerGame.contestedShowdown_pays seated.distinct nonneg
    invariant.accounts.pot someone shown
  refine ⟨(game.contestedShowdown hands).1, (game.contestedShowdown hands).2, ?_, ?_⟩
  · unfold PokerGame.conductShowdown
    rcases listed : game.remainingPlayers with _ | ⟨first, _ | ⟨second, rest⟩⟩
    · simp [listed] at contested
    · simp [listed] at contested
    · rw [listed] at evaluated
      simp only [evaluated]
  · rw [← exactly]
    omega

/-! ### Who has put in the most -/

/-- A hand with two or more players left has its largest contributor among them. -/
def TopRemains (game : PokerGame) : Prop :=
  2 ≤ game.remainingPlayers.length → game.TopClaimed

theorem PokerGame.mem_remainingPlayers {game : PokerGame} {player : Player} :
    player ∈ game.remainingPlayers ↔ player ∈ game.players ∧ player.status.remains = true := by
  simp [PokerGame.remainingPlayers]

/-- Statuses and totals alone decide who has put in the most. -/
theorem TopRemains.congr {game next : PokerGame} (top : TopRemains game)
    (same : next.players.map (fun player => (player.status, player.totalBetThisHand)) =
      game.players.map fun player => (player.status, player.totalBetThisHand)) :
    TopRemains next := by
  have transfer : ∀ {first second : List Player},
      first.map (fun player => (player.status, player.totalBetThisHand)) =
        second.map (fun player => (player.status, player.totalBetThisHand)) →
      ∀ player ∈ first, ∃ other ∈ second, other.status = player.status ∧
        other.totalBetThisHand = player.totalBetThisHand := by
    intro first second equal player member
    have image := List.mem_map_of_mem (f := fun player =>
      (player.status, player.totalBetThisHand)) member
    rw [equal] at image
    obtain ⟨other, inside, pair⟩ := List.mem_map.mp image
    exact ⟨other, inside, congrArg Prod.fst pair, congrArg Prod.snd pair⟩
  have count : next.remainingPlayers.length = game.remainingPlayers.length := by
    have filtered := congrArg (fun images => (images.filter fun image : PlayerStatus × Int =>
      image.1.remains).length) same
    simpa [List.filter_map, PokerGame.remainingPlayers, Function.comp_def] using filtered
  intro two
  obtain ⟨leader, leading, largest⟩ := top (count ▸ two)
  obtain ⟨leaderIn, remains⟩ := PokerGame.mem_remainingPlayers.mp leading
  obtain ⟨image, imageIn, status, total⟩ := transfer same.symm leader leaderIn
  refine ⟨image, PokerGame.mem_remainingPlayers.mpr ⟨imageIn, by rw [status]; exact remains⟩, ?_⟩
  intro other otherIn
  obtain ⟨before, beforeIn, _, beforeTotal⟩ := transfer same other otherIn
  have := largest before beforeIn
  omega

/-- The big or the small blind leads the table when a hand opens. -/
theorem OpenedHand.topRemains {game next : PokerGame} {shuffle : Shuffle} {button : Nat}
    (hand : OpenedHand game button (game.nextBlinds shuffle).1 (game.nextBlinds shuffle).2 next)
    (small : 0 < game.smallBlind) (big : 0 < game.bigBlind)
    (solvent : ∀ player ∈ game.players, 0 ≤ player.chips) : next.TopClaimed := by
  have total : ∀ (seat : Nat) (player : Player), next.players[seat]? = some player →
      player.totalBetThisHand = player.currentBet := by
    intro seat player here
    obtain ⟨before, cards, there, rfl⟩ := hand.player_of_seat here
    exact (game.openSeat_accounts button _ _ seat
      (solvent before (List.mem_of_getElem? there))).2.2.2.2.symm
  have blindAt : ∀ {seat : Nat}, game.HasChips seat → ∃ player, next.players[seat]? = some player ∧
      player ∈ next.remainingPlayers := by
    rintro seat ⟨before, there, chips⟩
    obtain ⟨cards, image⟩ := hand.opened seat
    rw [there, Option.map_some] at image
    refine ⟨_, image, PokerGame.mem_remainingPlayers.mpr ⟨List.mem_of_getElem? image, ?_⟩⟩
    have inPlay := game.openSeat_inPlay button (game.nextBlinds shuffle).1
      (game.nextBlinds shuffle).2 seat before (Or.inl chips)
    have alive : (before.resetForNewHand.status != .busted) = true := by
      simpa using (PokerGame.reset_status before).mpr chips
    rw [alive] at inPlay
    change (game.openSeat button (game.nextBlinds shuffle).1 (game.nextBlinds shuffle).2 seat
      before).status.remains = true
    revert inPlay
    cases (game.openSeat button (game.nextBlinds shuffle).1 (game.nextBlinds shuffle).2 seat
      before).status <;> decide
  obtain ⟨smallPlayer, smallAt, smallIn⟩ := blindAt hand.smallAlive
  obtain ⟨bigPlayer, bigAt, bigIn⟩ := blindAt hand.bigAlive
  have smallBet := (hand.bet_of_seat small big solvent smallAt).1
  have bigBet := (hand.bet_of_seat small big solvent bigAt).1
  have smallTotal := total _ _ smallAt
  have bigTotal := total _ _ bigAt
  rw [if_neg hand.apart, if_pos rfl] at smallBet
  rw [if_pos rfl] at bigBet
  have smallPost := (hand.accounts solvent).bounds smallPlayer (List.mem_of_getElem? smallAt)
  have others : ∀ player ∈ next.players, player.totalBetThisHand ≤
      max smallPlayer.totalBetThisHand bigPlayer.totalBetThisHand := by
    intro player member
    obtain ⟨seat, here⟩ := List.mem_iff_getElem?.mp member
    rw [total seat player here, (hand.bet_of_seat small big solvent here).1]
    split
    · omega
    · split <;> omega
  by_cases lower : smallPlayer.totalBetThisHand ≤ bigPlayer.totalBetThisHand
  · exact ⟨bigPlayer, bigIn, fun other member => by have := others other member; omega⟩
  · exact ⟨smallPlayer, smallIn, fun other member => by have := others other member; omega⟩

namespace PokerGame

theorem performAction_remains {game : PokerGame} {player : Player} {action : Action} {amount : Int}
    {done : Performed} (active : player.status = .active)
    (performed : game.performAction player player.id action amount = some done) :
    done.player.status.remains = true ∨ (action = .fold ∧ done.player = player.fold) := by
  rcases performAction_player performed with ⟨folds, same, _⟩ | ⟨same, _⟩ | ⟨stake, same, _⟩ |
    ⟨same, _⟩
  · exact Or.inr ⟨folds, same⟩
  · left
    rw [same, active]
    rfl
  · left
    rw [same]
    rcases bet_stays active stake with stays | shoved
    · rw [stays]
      rfl
    · rw [shoved]
      rfl
  · left
    rw [same]
    rfl

/-- The player has put in strictly more than every other player still in. -/
def leads (game : PokerGame) (player : Player) : Bool :=
  game.remainingPlayers.all fun other =>
    other.id == player.id || decide (other.totalBetThisHand < player.totalBetThisHand)

theorem length_remaining_set {game : PokerGame} {player after : Player}
    (turn : game.Turn player) :
    ((game.players.set game.currentPlayerIndex after).filter fun player =>
        player.status.remains).length + 1 =
      game.remainingPlayers.length + if after.status.remains then 1 else 0 := by
  obtain ⟨inside, atTurn⟩ := List.getElem?_eq_some_iff.mp turn.here
  have counted : 0 < game.players.countP fun player => player.status.remains :=
    List.countP_pos_iff.mpr ⟨player, List.mem_of_getElem? turn.here, by rw [turn.active]; rfl⟩
  have staying : player.status.remains = true := by
    rw [turn.active]
    rfl
  unfold remainingPlayers
  rw [← List.countP_eq_length_filter, ← List.countP_eq_length_filter, List.countP_set inside,
    atTurn, staying]
  simp only [↓reduceIte]
  omega

/-- Behind a player who does not lead, someone else still in has put in as much as any given
player still in. -/
theorem exists_heir {table : Table} {game : PokerGame} {player leader : Player}
    (seated : Seated table game) (turn : game.Turn player)
    (leading : leader ∈ game.remainingPlayers)
    (notLeading : leader.id = player.id → game.leads player = false) :
    ∃ other ∈ game.remainingPlayers, other.id ≠ player.id ∧
      leader.totalBetThisHand ≤ other.totalBetThisHand := by
  by_cases same : leader.id = player.id
  · have overtaken := notLeading same
    simp only [leads, List.all_eq_false, Bool.or_eq_true, beq_iff_eq, decide_eq_true_eq, not_or,
      Int.not_lt] at overtaken
    obtain ⟨other, otherIn, apart, enough⟩ := overtaken
    have equal : leader = player := List.inj_on_of_nodup_map seated.distinct
      (mem_remainingPlayers.mp leading).1 (List.mem_of_getElem? turn.here) same
    exact ⟨other, otherIn, apart, equal ▸ enough⟩
  · exact ⟨leader, leading, same, Int.le_refl _⟩

end PokerGame

/-- An accepted action keeps the largest contributor in the hand, unless it is the fold of
a player who leads two or more others. -/
theorem TopRemains.afterAction {table : Table} {game : PokerGame} (top : TopRemains game)
    (seated : Seated table game) (inPlay : InPlay game) {player : Player}
    (turn : game.Turn player) {action : Action} {amount : Int} {done : Performed}
    (performed : game.performAction player player.id action amount = some done)
    (stays : action = .fold → 3 ≤ game.remainingPlayers.length → game.leads player = false) :
    TopRemains (game.afterAction done player.id action amount) := by
  obtain ⟨_, _, frame⟩ := game.afterAction_frame done player.id action amount
  have written := PokerGame.commitAction_players seated turn performed
  have pays := PokerGame.performAction_pays
    (inPlay.bounds player (List.mem_of_getElem? turn.here)).1 performed
  have paid := pays.paid
  have total := pays.total
  have count : (game.afterAction done player.id action amount).remainingPlayers.length + 1 =
      game.remainingPlayers.length + if done.player.status.remains then 1 else 0 := by
    rw [frame, ← PokerGame.length_remaining_set turn, ← written]
    rfl
  have players : (game.afterAction done player.id action amount).players =
      game.players.set game.currentPlayerIndex done.player := by
    rw [frame]
    exact written
  have actorIn : done.player ∈ (game.afterAction done player.id action amount).players := by
    rw [players]
    exact List.mem_set inPlay.turn done.player
  have kept : ∀ {seat : Nat} {other : Player}, game.players[seat]? = some other →
      seat ≠ game.currentPlayerIndex →
      other ∈ (game.afterAction done player.id action amount).players := by
    intro seat other here apart
    rw [players, List.mem_iff_getElem?]
    exact ⟨seat, by rw [List.getElem?_set_ne (Ne.symm apart), here]⟩
  -- a bound on the old totals and on the actor's new one bounds all the new totals
  have bounded : ∀ {bound : Int}, done.player.totalBetThisHand ≤ bound →
      (∀ other ∈ game.players, other.totalBetThisHand ≤ bound) →
      ∀ other ∈ (game.afterAction done player.id action amount).players,
        other.totalBetThisHand ≤ bound := by
    intro bound own others other member
    rw [players] at member
    rcases List.mem_or_eq_of_mem_set member with old | rfl
    · exact others other old
    · exact own
  intro two
  rcases PokerGame.performAction_remains turn.active performed with remains | ⟨folds, left⟩
  · rw [remains, if_pos rfl] at count
    obtain ⟨leader, leading, largest⟩ := top (by omega)
    obtain ⟨leaderIn, leaderRemains⟩ := PokerGame.mem_remainingPlayers.mp leading
    have own := largest player (List.mem_of_getElem? turn.here)
    obtain ⟨seat, leaderAt⟩ := List.mem_iff_getElem?.mp leaderIn
    by_cases higher : done.player.totalBetThisHand ≤ leader.totalBetThisHand ∧
        seat ≠ game.currentPlayerIndex
    · exact ⟨leader, PokerGame.mem_remainingPlayers.mpr ⟨kept leaderAt higher.2, leaderRemains⟩,
        bounded higher.1 largest⟩
    · refine ⟨done.player, PokerGame.mem_remainingPlayers.mpr ⟨actorIn, remains⟩,
        bounded (Int.le_refl _) ?_⟩
      intro other member
      have below := largest other member
      by_cases same : seat = game.currentPlayerIndex
      · rw [same, turn.here] at leaderAt
        cases leaderAt
        omega
      · have : ¬ done.player.totalBetThisHand ≤ leader.totalBetThisHand := fun low =>
          higher ⟨low, same⟩
        omega
  · have gone : done.player.status.remains = false := by
      rw [left]
      rfl
    have unpaid : done.player.totalBetThisHand = player.totalBetThisHand := by
      rw [left]
      rfl
    rw [gone] at count
    simp only [Bool.false_eq_true, ↓reduceIte, Nat.add_zero] at count
    obtain ⟨leader, leading, largest⟩ := top (by omega)
    have own := largest player (List.mem_of_getElem? turn.here)
    obtain ⟨heir, heirIn, apart, enough⟩ :=
      PokerGame.exists_heir seated turn leading fun _ => stays folds (by omega)
    obtain ⟨inside, remains⟩ := PokerGame.mem_remainingPlayers.mp heirIn
    obtain ⟨seat, heirAt⟩ := List.mem_iff_getElem?.mp inside
    have elsewhere : seat ≠ game.currentPlayerIndex := by
      rintro rfl
      rw [turn.here] at heirAt
      cases heirAt
      exact apart rfl
    refine ⟨heir, PokerGame.mem_remainingPlayers.mpr ⟨kept heirAt elsewhere, remains⟩,
      bounded (by omega) ?_⟩
    intro other member
    have := largest other member
    omega

/-! ### Runs -/

/-- The decision makes a player leave two or more others it has out-contributed. -/
def leaderLeaves (state : DriverState) (event : DriverEvent) : Bool :=
  match event with
  | .decide decision =>
      decide (3 ≤ state.game.remainingPlayers.length) &&
        (state.game.players[state.game.currentPlayerIndex]?).any fun player =>
          state.game.foldsOn player decision && state.game.leads player
  | _ => false

def leaderStays (state : DriverState) (event : DriverEvent) : Bool := !leaderLeaves state event

theorem topRemains_step {table : Table} {state next : DriverState} {event : DriverEvent}
    (blinds : 0 < table.smallBlind ∧ table.smallBlind ≤ table.bigBlind)
    (reached : Reached table state) (top : state.stage = .inHand → TopRemains state.game)
    (listed : listedStep state event = true) (stays : leaderStays state event = true)
    (taken : driverStep state event = some next) :
    next.stage = .inHand → TopRemains next.game := by
  intro inHand
  cases event with
  | newHand shuffle =>
      obtain ⟨_, _, button, hand⟩ := reached.opened taken
      have small : 0 < state.game.smallBlind := reached.seated.blinds.1 ▸ blinds.1
      have big : 0 < state.game.bigBlind := by
        rw [reached.seated.blinds.2]
        omega
      exact fun _ => OpenedHand.topRemains hand small big reached.solvent.chips
  | skip =>
      obtain ⟨stage, _, _, _, rfl⟩ := driverStep_skip taken
      obtain ⟨_, _, frame⟩ := state.game.advance_frame
      exact (top stage).congr (by rw [frame])
  | decide decision =>
      obtain ⟨stage, _, _, player, action, amount, done, turn, performed, rfl, which⟩ :=
        reached.decided taken
      have inPlay := reached.inPlay stage
      have funded := inPlay.funded player (List.mem_of_getElem? turn.here) turn.active
      apply (top stage).afterAction reached.seated inPlay turn performed
      intro folding three
      simp only [listedStep, turn.here, Option.any_some] at listed
      have folds : state.game.foldsOn player decision = true := by
        rcases which with ⟨same, _⟩ | ⟨_, rejected⟩
        · simp [PokerGame.foldsOn, ← same, folding]
        · exact PokerGame.foldsOn_of_rejected reached.seated turn funded listed rejected
      simpa [leaderStays, leaderLeaves, three, turn.here, folds] using stays
  | nextPhase =>
      obtain ⟨stage, _, shown | ⟨phase, count, describe, _, _, _, _, opened⟩⟩ :=
        reached.phaseMoved taken inHand
      · exact (top stage).congr (by rw [shown])
      · obtain ⟨_, _, frame, _⟩ :=
          (state.game.dealtStreet count phase describe).startNewBettingRound_spec
        refine (top stage).congr ?_
        rw [opened, frame]
        simp only [List.map_map]
        rfl
  | showdown =>
      obtain ⟨_, _, _, _, ended⟩ := driverStep_showdown taken
      rw [ended] at inHand
      cases inHand

/-- Every contested showdown of a driver run returns; it pays out the whole pot exactly
when a player still in has put in as much as anyone, and this is so whenever no decision of
the run made a leader of two or more others leave. -/
theorem contested_pot_paid_out (table : Table) (events : List DriverEvent) (state : DriverState)
    (blinds : 0 < table.smallBlind ∧ table.smallBlind ≤ table.bigBlind)
    (played : Runs.run driverStep table.start events = some state)
    (listed : Runs.meets driverStep listedStep table.start events = true)
    (stage : state.stage = .inHand) (contested : 2 ≤ state.game.remainingPlayers.length) :
    ∃ next result, state.game.conductShowdown = .ok (next, result) ∧
      ((result.paid = state.game.pot ∧ next.pot = 0) ↔ state.game.TopClaimed) ∧
      (Runs.meets driverStep leaderStays table.start events = true →
        result.paid = state.game.pot ∧ next.pot = 0) := by
  have reached := table.reached played
  obtain ⟨next, result, returned, exactly⟩ :=
    (reached.inPlay stage).showdown_pays reached.seated contested
  refine ⟨next, result, returned, exactly, fun stays => exactly.mpr ?_⟩
  have holds : Reached table state ∧ (state.stage = .inHand → TopRemains state.game) :=
    Runs.run_invariant
      (fun state => Reached table state ∧ (state.stage = .inHand → TopRemains state.game))
      (fun before event after ⟨reached, top⟩ allowed taken =>
        have ⟨first, second⟩ := Bool.and_eq_true_iff.mp allowed
        ⟨reached.step taken, topRemains_step blinds reached top first second taken⟩)
      ⟨table.reached_start, fun stage => nomatch stage⟩ (Runs.meets_and listed stays) played
  exact holds.2 stage contested

def deepAndShort : Table where
  smallBlind := 10
  bigBlind := 20
  chips := [100, 30, 30]
  button := 2
  seats_ge := by decide
  seats_le := by decide
  chips_pos := by decide
  button_lt := by decide

def allInForLess : List DriverEvent :=
  [.newHand .unshuffled, .decide ⟨.raise, 40⟩, .decide ⟨.allIn, 0⟩, .decide ⟨.allIn, 0⟩,
    .nextPhase]

/-- The deep stack folds on the flop; the 30 chips only it has paid stay in the pot. -/
theorem unmatched_chips_left_in_pot :
    ∃ state next result, Runs.run driverStep deepAndShort.start
        (allInForLess ++ [.decide ⟨.fold, 0⟩, .nextPhase, .nextPhase, .nextPhase]) = some state ∧
      Runs.meets driverStep listedStep deepAndShort.start
        (allInForLess ++ [.decide ⟨.fold, 0⟩, .nextPhase, .nextPhase, .nextPhase]) = true ∧
      state.stage = .inHand ∧ state.game.currentPhase = .showdown ∧
      2 ≤ state.game.remainingPlayers.length ∧
      state.game.conductShowdown = .ok (next, result) ∧
      state.game.pot = 120 ∧ result.paid = 90 ∧ next.pot = 30 :=
  ⟨_, _, _, rfl, rfl, rfl, rfl, by decide, rfl, by decide, by decide, by decide⟩

def everyoneAllIn : List DriverEvent :=
  [.newHand .unshuffled, .decide ⟨.allIn, 0⟩, .decide ⟨.allIn, 0⟩, .decide ⟨.allIn, 0⟩,
    .nextPhase, .nextPhase, .nextPhase, .nextPhase]

theorem contested_pot_paid_out_all_in :
    ∃ state, Runs.run driverStep deepAndShort.start everyoneAllIn = some state ∧
      state.game.currentPhase = .showdown ∧
      ∃ next result, state.game.conductShowdown = .ok (next, result) ∧
        result.paid = state.game.pot ∧ next.pot = 0 := by
  have reached : ∃ state, Runs.run driverStep deepAndShort.start everyoneAllIn = some state ∧
      state.game.currentPhase = .showdown ∧ state.stage = .inHand ∧
      2 ≤ state.game.remainingPlayers.length := ⟨_, rfl, rfl, rfl, by decide⟩
  obtain ⟨state, played, shown, stage, contested⟩ := reached
  obtain ⟨next, result, returned, _, paid⟩ :=
    contested_pot_paid_out deepAndShort everyoneAllIn state (by decide) played rfl stage contested
  exact ⟨state, played, shown, next, result, returned, paid rfl⟩

end Holdem
