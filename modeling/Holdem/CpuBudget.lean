import Holdem.CpuGame

set_option autoImplicit false

namespace Holdem

def chipsBehind (game : PokerGame) : Nat := game.stackTotal.toNat

/-- The passes that every phase and every chip behind may take, beside an open round. -/
def roundsCost (game : PokerGame) : Nat :=
  (game.players.length + 2) * (game.currentPhase.phasesLeft + chipsBehind game)

/-- A number of passes that the rest of a hand does not exceed: in an open round the turn has
so many seats of its lap before it. -/
def HandWithin (game : PokerGame) (budget : Nat) : Prop :=
  (game.bettingRoundComplete = true ∧ roundsCost game ≤ budget) ∨
    ∃ base, Lap game base ∧
      roundsCost game + (if game.isActive game.currentPlayerIndex then
        game.players.length - Clockwise.place game.players.length base game.currentPlayerIndex
      else game.players.length + 1) ≤ budget

theorem HandWithin.of_lap {game : PokerGame} {base budget : Nat} (lap : Lap game base)
    (enough : roundsCost game + game.players.length + 1 ≤ budget) : HandWithin game budget := by
  refine Or.inr ⟨base, lap, ?_⟩
  split <;> omega

theorem HandWithin.of_active {game : PokerGame} {base budget : Nat} (lap : Lap game base)
    (active : game.isActive game.currentPlayerIndex = true)
    (enough : roundsCost game + (game.players.length -
      Clockwise.place game.players.length base game.currentPlayerIndex) ≤ budget) :
    HandWithin game budget :=
  Or.inr ⟨base, lap, by rwa [if_pos active]⟩

theorem HandWithin.covers {game : PokerGame} {budget : Nat} (within : HandWithin game budget) :
    roundsCost game ≤ budget := by
  rcases within with ⟨_, enough⟩ | ⟨_, _, enough⟩
  · exact enough
  · exact Nat.le_trans (Nat.le_add_right _ _) enough

section Steps

variable {table : Table} {game : PokerGame} {player : Player} {action : Action} {amount : Int}
  {done : Performed}

theorem afterAction_stackTotal (seated : Seated table game) (turn : game.Turn player)
    (funded : 0 < player.chips)
    (performed : game.performAction player player.id action amount = some done) :
    (game.afterAction done player.id action amount).stackTotal = game.stackTotal - done.paid ∧
      0 ≤ done.paid := by
  have pays := PokerGame.performAction_pays (Int.le_of_lt funded) performed
  obtain ⟨_, _, frame⟩ := game.afterAction_frame done player.id action amount
  refine ⟨?_, pays.paid⟩
  have written := PokerGame.commitAction_players seated turn performed
  unfold PokerGame.stackTotal
  rw [frame]
  dsimp only
  rw [written, PokerGame.sum_map_set _ turn.here, pays.chips]
  omega

theorem afterAction_phase (game : PokerGame) (done : Performed) (playerId : Int)
    (action : Action) (amount : Int) :
    (game.afterAction done playerId action amount).currentPhase = game.currentPhase := by
  obtain ⟨_, _, frame⟩ := game.afterAction_frame done playerId action amount
  rw [frame]
  rfl

/-- No action makes the phases and chips left dearer, and a paid chip makes them cheaper by
more than a lap. -/
theorem roundsCost_act (seated : Seated table game) (inPlay : InPlay game)
    (turn : game.Turn player)
    (performed : game.performAction player player.id action amount = some done) :
    roundsCost (game.afterAction done player.id action amount) ≤ roundsCost game ∧
      (0 < done.paid → roundsCost (game.afterAction done player.id action amount) +
        (game.players.length + 2) ≤ roundsCost game) := by
  have funded := inPlay.funded player (List.mem_of_getElem? turn.here) turn.active
  obtain ⟨left, paid⟩ := afterAction_stackTotal seated turn funded performed
  have size := PokerGame.afterAction_length seated turn performed
  have after := PokerGame.stackTotal_nonneg fun player inside =>
    ((inPlay.afterAction seated turn performed).bounds player inside).1
  unfold roundsCost
  rw [afterAction_phase, size]
  refine ⟨Nat.mul_le_mul_left _ ?_, ?_⟩
  · unfold chipsBehind
    omega
  · intro pays
    rw [← Nat.mul_succ]
    apply Nat.mul_le_mul_left
    unfold chipsBehind
    omega

theorem Performed.Raises.paid_pos {base : Nat} (raises : done.Raises game player)
    (lap : Lap game base) (inPlay : InPlay game) (turn : game.Turn player)
    (performed : game.performAction player player.id action amount = some done) :
    0 < done.paid := by
  have member := List.mem_of_getElem? turn.here
  have funded := inPlay.funded player member turn.active
  have pays := PokerGame.performAction_pays (Int.le_of_lt funded) performed
  have own := lap.bounded player member turn.active
  have higher := raises.higher
  rw [raises.bet, pays.bet] at higher
  omega

theorem HandWithin.act {budget : Nat} (within : HandWithin game budget)
    (running : game.bettingRoundComplete = false) (seated : Seated table game)
    (inPlay : InPlay game) (turn : game.Turn player)
    (performed : game.performAction player player.id action amount = some done)
    (outcome : done.Quiet game player ∨ done.Raises game player) :
    ∃ less, less < budget ∧ HandWithin (game.afterAction done player.id action amount) less := by
  obtain ⟨cheaper, muchCheaper⟩ := roundsCost_act seated inPlay turn performed
  have size := PokerGame.afterAction_length seated turn performed
  rcases within with ⟨complete, _⟩ | ⟨base, lap, enough⟩
  · rw [running] at complete
    cases complete
  · have acts : game.isActive game.currentPlayerIndex = true :=
      PokerGame.isActive_iff.mpr ⟨player, turn.here, turn.active⟩
    rw [if_pos acts] at enough
    have place := Clockwise.place_lt lap.inside game.currentPlayerIndex
    have closed : (game.afterAction done player.id action amount).bettingRoundComplete = true →
        ∃ less, less < budget ∧
          HandWithin (game.afterAction done player.id action amount) less := fun complete =>
      ⟨_, by omega, Or.inl ⟨complete, Nat.le_refl _⟩⟩
    rcases PokerGame.afterAction_active seated turn inPlay.turn performed with complete | active
    · exact closed complete
    · rcases outcome with quiet | raises
      · rcases lap.quiet seated inPlay turn performed quiet with complete | ⟨kept, further, _⟩
        · exact closed complete
        · refine ⟨_, ?_, .of_active kept active (Nat.le_refl _)⟩
          rw [size]
          omega
      · rcases lap.raise seated inPlay turn performed raises with complete | ⟨fresh, started⟩
        · exact closed complete
        · have paid := muchCheaper (raises.paid_pos lap inPlay turn performed)
          refine ⟨_, ?_, .of_lap started (Nat.le_refl _)⟩
          rw [size]
          omega

theorem HandWithin.skip {budget : Nat} (within : HandWithin game budget)
    (running : game.bettingRoundComplete = false) (inPlay : InPlay game)
    (idle : game.isActive game.currentPlayerIndex = false) :
    ∃ less, less < budget ∧ HandWithin game.advanceToNextPlayer less := by
  have same : roundsCost game.advanceToNextPlayer = roundsCost game := by
    obtain ⟨_, _, frame⟩ := game.advance_frame
    rw [frame]
    rfl
  have size : game.advanceToNextPlayer.players.length = game.players.length := by
    obtain ⟨_, _, frame⟩ := game.advance_frame
    rw [frame]
  rcases within with ⟨complete, _⟩ | ⟨base, lap, enough⟩
  · rw [running] at complete
    cases complete
  · rw [idle, if_neg Bool.false_ne_true] at enough
    have closed : game.advanceToNextPlayer.bettingRoundComplete = true →
        ∃ less, less < budget ∧ HandWithin game.advanceToNextPlayer less := fun complete =>
      ⟨_, by omega, Or.inl ⟨complete, Nat.le_refl _⟩⟩
    rcases game.advance_active inPlay.turn with complete | active
    · exact closed complete
    · rcases lap.skip inPlay.turn idle with complete | kept
      · exact closed complete
      · refine ⟨_, ?_, .of_active kept active (Nat.le_refl _)⟩
        rw [same, size]
        omega

end Steps

theorem HandWithin.pos {game : PokerGame} {budget : Nat} (within : HandWithin game budget)
    (phase : game.currentPhase ≠ .finished) : 0 < budget := by
  have covered := within.covers
  have phases : 0 < game.currentPhase.phasesLeft := by
    cases left : game.currentPhase
    case finished => exact absurd left phase
    all_goals decide
  have cost : 0 < roundsCost game := Nat.mul_pos (by omega) (by omega)
  omega

theorem HandWithin.nextPhase {table : Table} {state next : DriverState} {budget : Nat}
    (within : HandWithin state.game budget) (reached : Reached table state)
    (taken : driverStep state .nextPhase = some next) :
    ∃ less, less < budget ∧ HandWithin next.game less := by
  obtain ⟨stays, later, size, left⟩ := nextPhase_later reached taken
  obtain ⟨stage, complete, moved⟩ := reached.phaseMoved taken stays
  have cheaper : roundsCost next.game + (state.game.players.length + 2) ≤
      roundsCost state.game := by
    unfold roundsCost chipsBehind
    rw [size, left, ← Nat.mul_succ]
    apply Nat.mul_le_mul_left
    omega
  have covered := within.covers
  rcases moved with shown | ⟨phase, count, describe, street, _, _, _, opened⟩
  · refine ⟨_, ?_, Or.inl ⟨?_, Nat.le_refl _⟩⟩
    · omega
    · rw [shown]
      exact complete
  · have lap : Lap (state.game.dealtStreet count phase describe).startNewBettingRound
        state.game.dealerButton := lap_of_street street (reached.inPlay stage).dealer
    rw [← opened] at lap
    refine ⟨_, ?_, .of_lap lap (Nat.le_refl _)⟩
    rw [size]
    omega

/-- Every listed step inside a hand uses up some of its budget, until the hand is over. -/
theorem handWithin_step {table : Table} {state next : DriverState} {event : DriverEvent}
    {budget : Nat} (blind : 0 < table.bigBlind) (reached : Reached table state)
    (inHand : state.stage = .inHand) (within : HandWithin state.game budget)
    (listed : listedStep state event = true) (taken : driverStep state event = some next) :
    next.stage = .betweenHands ∨
      (next.stage = .inHand ∧ ∃ less, less < budget ∧ HandWithin next.game less) := by
  have inPlay := reached.inPlay inHand
  cases event with
  | newHand shuffle =>
      obtain ⟨stage, _⟩ := driverStep_newHand taken
      rw [inHand] at stage
      cases stage
  | skip =>
      obtain ⟨_, _, running, idle, rfl⟩ := driverStep_skip taken
      exact Or.inr ⟨rfl, within.skip running inPlay idle⟩
  | decide decision =>
      obtain ⟨_, _, running, _⟩ := driverStep_decide taken
      obtain ⟨player, action, amount, done, turn, performed, rfl, outcome, _⟩ :=
        reached.outcome blind listed taken
      exact Or.inr ⟨rfl, within.act running reached.seated inPlay turn performed outcome⟩
  | nextPhase => exact Or.inr ⟨nextPhase_stays taken, within.nextPhase reached taken⟩
  | showdown =>
      obtain ⟨_, _, _, _, stage⟩ := driverStep_showdown taken
      exact Or.inl stage

/-- The passes that a hand at a table can take, the one that opens it included. -/
def handBound (table : Table) : Nat :=
  (table.chips.length + 2) * (5 + table.chips.sum.toNat) + table.chips.length + 2

theorem handWithin_newHand {table : Table} {state next : DriverState} {shuffle : Shuffle}
    {events : List DriverEvent} (blinds : 0 < table.smallBlind ∧ table.smallBlind ≤ table.bigBlind)
    (played : Runs.run driverStep table.start events = some state)
    (level : bigBlindLevel state (.newHand shuffle) = true)
    (taken : driverStep state (.newHand shuffle) = some next) :
    next.stage = .inHand ∧ ∃ less, less < handBound table ∧ HandWithin next.game less := by
  have reached := table.reached played
  obtain ⟨stage, opened, button, hand⟩ := reached.opened taken
  refine ⟨opened, ?_⟩
  have small : 0 < state.game.smallBlind := reached.seated.blinds.1 ▸ blinds.1
  have big : 0 < state.game.bigBlind := by
    rw [reached.seated.blinds.2]
    omega
  have lap : Lap next.game (state.game.nextBlinds shuffle).2 :=
    OpenedHand.lap hand small big reached.solvent.chips (by simpa [bigBlindLevel] using level)
  have size : next.game.players.length = table.chips.length := (reached.step taken).seated.length
  have further : Runs.run driverStep table.start (events ++ [.newHand shuffle]) = some next :=
    Runs.run_append.mpr ⟨_, played, Runs.run_cons_eq_some.mpr ⟨_, taken, rfl⟩⟩
  have brought := chipsInPlay_le further
  have pot : 0 ≤ next.game.pot := (reached.step taken).solvent.pot
  refine ⟨_, ?_, .of_lap lap (Nat.le_refl _)⟩
  unfold DriverState.chipsInPlay at brought
  rw [if_pos opened] at brought
  have cost : roundsCost next.game ≤
      (table.chips.length + 2) * (5 + table.chips.sum.toNat) := by
    unfold roundsCost chipsBehind
    rw [size, hand.phase]
    apply Nat.mul_le_mul_left
    simp only [GamePhase.phasesLeft]
    omega
  unfold handBound
  omega

/-! ### The whole game -/

section Game

variable (table : Table) (alphabet : Numeral.Alphabet) (maxHands : Nat) (displayInterval : Int)
  (chance : Nat → CpuChance)

/-- Every hand that the game deals has a big blind that posts at least as much as the small
blind, or a small blind that posts its last chips. -/
def LevelBlinds : Prop :=
  ∀ time state after,
    Loops.runFor (cpuPass alphabet maxHands displayInterval chance) time 0 ⟨0, table.start⟩ =
      .next state →
    cpuPass alphabet maxHands displayInterval chance time state = .next after →
    state.driver.stage = .betweenHands →
    bigBlindLevel state.driver (.newHand (chance time).shuffle) = true

/-- The budget of the loop at a time: a bound for each hand to come, and the rest of the hand
in play. -/
structure GameWithin (time : Nat) (state : CpuState) (budget : Nat) : Prop where
  played : PlayedTo table maxHands state
  ran : Loops.runFor (cpuPass alphabet maxHands displayInterval chance) time 0 ⟨0, table.start⟩ =
    .next state
  covered : ∃ rest, (state.driver.stage = .inHand → HandWithin state.driver.game rest) ∧
    (maxHands - state.handCount) * handBound table + rest ≤ budget

end Game

section GamePasses

variable {table : Table} {alphabet : Numeral.Alphabet} {maxHands : Nat} {displayInterval : Int}
  {chance : Nat → CpuChance}

theorem GameWithin.pass (shown : displayInterval ≠ 0)
    (blinds : 0 < table.smallBlind ∧ table.smallBlind ≤ table.bigBlind)
    (level : LevelBlinds table alphabet maxHands displayInterval chance) {time : Nat}
    {state : CpuState} {budget : Nat}
    (within : GameWithin table alphabet maxHands displayInterval chance time state budget) :
    (∃ final, cpuPass alphabet maxHands displayInterval chance time state = .done final ∧
        final.driver.stage = .betweenHands ∧
        (final.driver.game.isGameOver = true ∨ final.handCount = maxHands) ∧
        PlayedTo table maxHands final) ∨
      ∃ after less, cpuPass alphabet maxHands displayInterval chance time state = .next after ∧
        less < budget ∧
        GameWithin table alphabet maxHands displayInterval chance (time + 1) after less := by
  have blind : 0 < table.bigBlind := by omega
  obtain ⟨played, ran, rest, inHand, enough⟩ := within
  have kind := cpuPass_kind alphabet maxHands shown chance played.underway blind time
  rcases played.pass kind with ⟨left, stage, finished⟩ | ⟨after, taken, kept⟩
  · exact Or.inl ⟨state, left, stage, finished, played⟩
  · have later : Loops.runFor (cpuPass alphabet maxHands displayInterval chance) (time + 1) 0
        ⟨0, table.start⟩ = .next after := by
      rw [Loops.runFor_append ran, Nat.zero_add, Loops.runFor_next taken]
      rfl
    rw [taken] at kind
    refine Or.inr ⟨after, ?_⟩
    cases kind with
    | opens next stage more step =>
        obtain ⟨events, reached, _⟩ := played.history
        obtain ⟨opened, less, lower, fits⟩ :=
          handWithin_newHand blinds reached (level time state _ ran taken stage) step
        refine ⟨_, taken, ?_, kept, later, less, fun _ => fits, Nat.le_refl _⟩
        obtain ⟨left, same⟩ : ∃ left, maxHands - state.handCount = left + 1 :=
          ⟨maxHands - state.handCount - 1, by omega⟩
        have fewer : maxHands - (state.handCount + 1) = left := by omega
        dsimp only
        rw [same, Nat.succ_mul] at enough
        rw [fewer]
        omega
    | plays event next stage step listed which =>
        rcases handWithin_step blind played.underway.reached stage (inHand stage) listed step with
          between | ⟨inside, less, lower, fits⟩
        · refine ⟨_, taken, ?_, kept, later, 0, ?_, Nat.le_refl _⟩
          · have rest := (inHand stage).pos (played.underway.phase stage)
            dsimp only
            omega
          · intro still
            rw [between] at still
            cases still
        · refine ⟨_, taken, ?_, kept, later, less, fun _ => fits, Nat.le_refl _⟩
          dsimp only
          omega

end GamePasses

/-- Whatever is drawn, a game of random players with level blinds is left after a number of
passes that its seats, chips and hands bound: without an exception, unless the first hand divides
by a display interval of 0. -/
theorem cpu_game_bounded (table : Table) (alphabet : Numeral.Alphabet) (maxHands : Nat)
    (displayInterval : Int) (chance : Nat → CpuChance)
    (blinds : 0 < table.smallBlind ∧ table.smallBlind ≤ table.bigBlind)
    (level : LevelBlinds table alphabet maxHands displayInterval chance) :
    (displayInterval ≠ 0 ∨ maxHands = 0 →
      ∃ final, Loops.runFor (cpuPass alphabet maxHands displayInterval chance)
          (maxHands * handBound table + 1) 0 ⟨0, table.start⟩ = .done final ∧
        final.driver.stage = .betweenHands ∧
        (final.driver.game.isGameOver = true ∨ final.handCount = maxHands)) ∧
    (displayInterval = 0 → 0 < maxHands →
      Loops.runFor (cpuPass alphabet maxHands displayInterval chance)
          (maxHands * handBound table + 1) 0 ⟨0, table.start⟩ =
        .raised (.zeroDivisionError "integer modulo by zero")) := by
  constructor
  · rintro (shown | rfl)
    · have start : GameWithin table alphabet maxHands displayInterval chance 0 ⟨0, table.start⟩
          (maxHands * handBound table) := by
        refine ⟨.start table maxHands, rfl, 0, ?_, Nat.le_refl _⟩
        intro inHand
        cases inHand
      obtain ⟨final, ended, stage, finished, _⟩ := Loops.done_within
        (GameWithin table alphabet maxHands displayInterval chance)
        (fun final => final.driver.stage = .betweenHands ∧
          (final.driver.game.isGameOver = true ∨ final.handCount = maxHands) ∧
          PlayedTo table maxHands final)
        (fun _ _ _ within => within.pass shown blinds level) start
      exact ⟨final, ended, stage, finished⟩
    · exact ⟨_, Loops.runFor_done (cpuPass_no_hands alphabet chance displayInterval) _, rfl,
        Or.inr rfl⟩
  · rintro rfl more
    exact cpuPass_divides alphabet chance more _

theorem start_of_unopened {table : Table} {events : List DriverEvent} {state : DriverState}
    (played : Runs.run driverStep table.start events = some state)
    (unopened : events.countP DriverEvent.opensHand = 0) : state = table.start := by
  cases events with
  | nil => exact (Option.some.inj played).symm
  | cons event rest =>
      obtain ⟨next, taken, _⟩ := Runs.run_cons_eq_some.mp played
      have between : table.start.stage = .betweenHands := rfl
      cases event with
      | newHand shuffle => simp [DriverEvent.opensHand] at unopened
      | skip =>
          rw [(driverStep_skip taken).1] at between
          cases between
      | decide decision =>
          rw [(driverStep_decide taken).1] at between
          cases between
      | nextPhase =>
          rw [(driverStep_nextPhase taken).1] at between
          cases between
      | showdown =>
          rw [(driverStep_showdown taken).1] at between
          cases between

theorem PlayedTo.of_ran {table : Table} {alphabet : Numeral.Alphabet} {maxHands time : Nat}
    {displayInterval : Int} {chance : Nat → CpuChance} {state : CpuState}
    (shown : displayInterval ≠ 0) (blind : 0 < table.bigBlind)
    (ran : Loops.runFor (cpuPass alphabet maxHands displayInterval chance) time 0 ⟨0, table.start⟩ =
      .next state) : PlayedTo table maxHands state := by
  rcases Loops.runFor_keeps (PlayedTo table maxHands) _ (gameHeight maxHands)
    (fun time state => cpuPass_keeps alphabet chance shown blind time state)
    time (PlayedTo.start table maxHands) with ⟨final, ended, _⟩ | ⟨after, reached, kept, _⟩
  · rw [ran] at ended
    cases ended
  · rw [ran] at reached
    cases reached
    exact kept

/-- One hand in which every draw is a raise to three times the minimum. -/
theorem cpu_game_bounded_one_hand :
    ∃ final, Loops.runFor (cpuPass .ascii 1 1 fun _ => ⟨.unshuffled, ⟨fun _ => 2, 80⟩⟩)
        (1 * handBound (cpuOnlyTable 0) + 1) 0 ⟨0, (cpuOnlyTable 0).start⟩ = .done final ∧
      final.driver.stage = .betweenHands := by
  have level : LevelBlinds (cpuOnlyTable 0) .ascii 1 1
      fun _ => ⟨.unshuffled, ⟨fun _ => 2, 80⟩⟩ := by
    intro time state after ran taken stage
    have played := PlayedTo.of_ran Int.one_ne_zero (by decide) ran
    have kind := cpuPass_kind .ascii 1 Int.one_ne_zero (fun _ => ⟨.unshuffled, ⟨fun _ => 2, 80⟩⟩)
      played.underway (by decide) time
    rw [taken] at kind
    cases kind with
    | opens next _ more _ =>
        obtain ⟨events, reached, _, count⟩ := played.history
        rw [start_of_unopened reached (by omega)]
        rfl
    | plays event next inHand _ _ _ =>
        rw [stage] at inHand
        cases inHand
  obtain ⟨final, ended, stage, _⟩ := (cpu_game_bounded (cpuOnlyTable 0) .ascii 1 1
    (fun _ => ⟨.unshuffled, ⟨fun _ => 2, 80⟩⟩) (by decide) level).1 (by decide)
  exact ⟨final, ended, stage⟩

end Holdem
