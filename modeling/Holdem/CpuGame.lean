import Holdem.HandLedger
import Holdem.LostChips
import Holdem.RandomPlayer
import Holdem.RoundEnd
import Holdem.Lib.Loops

set_option autoImplicit false

namespace Holdem

/-- What one pass of the game loop can draw: the order of a deck, and a decision. -/
structure CpuChance where
  shuffle : Shuffle
  draws : Draws

structure CpuState where
  handCount : Nat
  driver : DriverState

/-- One pass of the innermost loop of `run_cpu_only_game`: skip a player who cannot act, or
let a random player decide. -/
def cpuTurn (alphabet : Numeral.Alphabet) (draws : Draws) (game : PokerGame) :
    Except PyError PokerGame :=
  match game.players[game.currentPlayerIndex]? with
  | none => .error (.indexError "list index out of range")
  | some player =>
      if player.status ≠ .active then .ok game.advanceToNextPlayer
      else
        match game.getLlmGameState player.id with
        | .error raised => .error raised
        | .ok gameState =>
            match RandomPlayer.makeDecision alphabet player.chips gameState draws with
            | .error raised => .error raised
            | .ok decision => .ok (game.decideOrFold player.id decision)

/-- One pass inside a hand: a turn while the round is open, then the next phase, and the
showdown behind the loop over the phases. -/
def cpuHand (alphabet : Numeral.Alphabet) (draws : Draws) (game : PokerGame) :
    Except PyError DriverState :=
  if game.currentPhase.playing then
    if game.bettingRoundComplete then
      game.advanceToNextPhase.map fun moved =>
        ⟨if moved.1 then .inHand else .betweenHands, moved.2⟩
    else (cpuTurn alphabet draws game).map fun next => ⟨.inHand, next⟩
  else if game.currentPhase = .showdown then
    game.conductShowdown.map fun settled => ⟨.betweenHands, settled.1⟩
  else .ok ⟨.betweenHands, game⟩

/-- One pass of the loops of `run_cpu_only_game`, with what it draws at its time. -/
def cpuPass (alphabet : Numeral.Alphabet) (maxHands : Nat) (displayInterval : Int)
    (chance : Nat → CpuChance) (time : Nat) (state : CpuState) : Loops.Pass CpuState PyError :=
  match state.driver.stage with
  | .stopped => .done state
  | .betweenHands =>
      if state.driver.game.isGameOver || decide (maxHands ≤ state.handCount) then .done state
      else
        match state.driver.game.startNewHand (chance time).shuffle with
        | .error raised => .raised raised
        | .ok opened =>
            if opened.currentPhase = .finished then
              .next ⟨state.handCount + 1, ⟨.stopped, opened⟩⟩
            else if displayInterval = 0 then
              -- `hand_count % display_interval`, whose other values only choose what is printed
              .raised (.zeroDivisionError "integer modulo by zero")
            else .next ⟨state.handCount + 1, ⟨.inHand, opened⟩⟩
  | .inHand =>
      match cpuHand alphabet (chance time).draws state.driver.game with
      | .error raised => .raised raised
      | .ok next => .next ⟨state.handCount, next⟩

/-- The seats and stacks of `setup_cpu_only_game`, with the button it draws. -/
def cpuOnlyTable (button : Fin 4) : Table where
  smallBlind := 10
  bigBlind := 20
  chips := List.replicate 4 2000
  button := button
  seats_ge := by decide
  seats_le := by decide
  chips_pos := by decide
  button_lt := button.isLt

/-! ### Every pass is a step of the driver -/

/-- What the loop can rely on: a state of a driver run, and inside a hand a phase of it. -/
structure Underway (table : Table) (state : DriverState) : Prop where
  reached : Reached table state
  going : state.stage ≠ .stopped
  phase : state.stage = .inHand → state.game.currentPhase ≠ .finished

theorem Table.underway_start (table : Table) : Underway table table.start := by
  refine ⟨table.reached_start, ?_, ?_⟩
  · intro stopped
    cases stopped
  · intro stage
    cases stage

theorem Table.start_going (table : Table) : table.start.game.isGameOver = false := by
  have all : table.game.players.filter (fun player => decide (player.chips > 0)) =
      table.game.players := by
    apply List.filter_eq_self.mpr
    intro player member
    obtain ⟨seat, inside, rfl⟩ := List.mem_mapIdx.mp member
    exact decide_eq_true (table.chips_pos _ (List.getElem_mem inside))
  have seats := table.seats_ge
  unfold PokerGame.isGameOver
  rw [show table.start.game = table.game from rfl, all, decide_eq_false_iff_not]
  simp only [Table.game, List.length_mapIdx]
  omega

theorem playing_ne_finished {phase : GamePhase} (playing : phase.playing = true) :
    phase ≠ .finished := by
  rintro rfl
  cases playing

theorem Underway.step {table : Table} {state next : DriverState} {event : DriverEvent}
    (underway : Underway table state) (taken : driverStep state event = some next) :
    Underway table next := by
  obtain ⟨reached, going, phase⟩ := underway
  suffices after : next.stage = .betweenHands ∨
      (next.stage = .inHand ∧ next.game.currentPhase ≠ .finished) by
    refine ⟨reached.step taken, ?_, ?_⟩
    · rcases after with between | ⟨inside, _⟩ <;> simp [*]
    · rcases after with between | ⟨_, kept⟩
      · simp [between]
      · exact fun _ => kept
  cases event with
  | newHand shuffle =>
      obtain ⟨_, stage, _, hand⟩ := reached.opened taken
      exact Or.inr ⟨stage, by simp [hand.phase]⟩
  | skip =>
      obtain ⟨_, playing, _, _, rfl⟩ := driverStep_skip taken
      obtain ⟨_, _, frame⟩ := state.game.advance_frame
      exact Or.inr ⟨rfl, by rw [frame]; exact playing_ne_finished playing⟩
  | decide decision =>
      obtain ⟨_, playing, _, player, action, amount, done, _, _, rfl, _⟩ := reached.decided taken
      obtain ⟨_, _, frame⟩ := state.game.afterAction_frame done player.id action amount
      exact Or.inr ⟨rfl, by rw [frame]; exact playing_ne_finished playing⟩
  | nextPhase =>
      have stays := nextPhase_stays taken
      obtain ⟨_, playing, complete, moved, returned, _⟩ := driverStep_nextPhase taken
      exact Or.inr ⟨stays, (PokerGame.nextPhase_moves playing complete returned).2⟩
  | showdown =>
      obtain ⟨_, _, _, _, stage⟩ := driverStep_showdown taken
      exact Or.inl stage

section Passes

variable {table : Table} {game : PokerGame}

theorem cpuTurn_step (alphabet : Numeral.Alphabet) (underway : Underway table ⟨.inHand, game⟩)
    (blind : 0 < table.bigBlind) (playing : game.currentPhase.playing = true)
    (running : game.bettingRoundComplete = false) (draws : Draws) :
    ∃ event next, cpuTurn alphabet draws game = .ok next ∧
      driverStep ⟨.inHand, game⟩ event = some ⟨.inHand, next⟩ ∧
      listedStep ⟨.inHand, game⟩ event = true ∧
      ((event = .skip ∧ game.isActive game.currentPlayerIndex = false) ∨
        ∃ decision, event = .decide decision ∧
          (draws.point < RandomPlayer.actionWeights.fold → decision = ⟨.fold, 0⟩)) := by
  have inPlay : InPlay game := underway.reached.inPlay rfl
  have seated : Seated table game := underway.reached.seated
  obtain ⟨player, here⟩ : ∃ player, game.players[game.currentPlayerIndex]? = some player :=
    ⟨_, List.getElem?_eq_getElem inPlay.turn⟩
  unfold cpuTurn
  rw [here]
  dsimp only
  by_cases active : player.status = .active
  · rw [if_neg (by simpa using active)]
    have turn : game.Turn player := ⟨here, active⟩
    have big : 0 < game.bigBlind := seated.blinds.2 ▸ blind
    obtain ⟨view, seen, lists⟩ := PokerGame.getLlmGameState_turn seated turn
    obtain ⟨decision, decided, listed⟩ : ∃ decision,
        RandomPlayer.makeDecision alphabet player.chips view draws = .ok decision ∧
          game.isListed player.id decision = true :=
      PokerGame.makeDecision_listed seated turn big inPlay.bet lists draws
    rw [seen]
    dsimp only
    rw [decided]
    refine ⟨.decide decision, _, rfl, ?_, ?_, Or.inr ⟨decision, rfl, ?_⟩⟩
    · simp [driverStep, playing, running, here, active]
    · simp [listedStep, here, listed]
    · intro low
      have folds : RandomPlayer.makeDecision alphabet player.chips view draws = .ok ⟨.fold, 0⟩ :=
        PokerGame.makeDecision_folds seated turn lists low
      rw [decided] at folds
      exact Except.ok.inj folds
  · rw [if_pos active]
    have idle : game.isActive game.currentPlayerIndex = false := by
      unfold PokerGame.isActive
      rw [here]
      simpa using active
    refine ⟨.skip, _, rfl, ?_, rfl, Or.inl ⟨rfl, idle⟩⟩
    simp [driverStep, playing, running, idle]

/-- What a pass inside a hand does: a turn, a change of phase, or the showdown. -/
inductive HandPass (game : PokerGame) (draws : Draws) (next : DriverState) : DriverEvent → Prop
  | skip (idle : game.isActive game.currentPlayerIndex = false) : HandPass game draws next .skip
  | decide (decision : Decision)
      (folds : draws.point < RandomPlayer.actionWeights.fold → decision = ⟨.fold, 0⟩) :
      HandPass game draws next (.decide decision)
  | nextPhase : HandPass game draws next .nextPhase
  | showdown : HandPass game draws next .showdown

theorem cpuHand_step (alphabet : Numeral.Alphabet) (underway : Underway table ⟨.inHand, game⟩)
    (blind : 0 < table.bigBlind) (draws : Draws) :
    ∃ event next, cpuHand alphabet draws game = .ok next ∧
      driverStep ⟨.inHand, game⟩ event = some next ∧
      listedStep ⟨.inHand, game⟩ event = true ∧ HandPass game draws next event := by
  have inPlay : InPlay game := underway.reached.inPlay rfl
  unfold cpuHand
  by_cases playing : game.currentPhase.playing = true
  · rw [if_pos playing]
    by_cases complete : game.bettingRoundComplete = true
    · rw [if_pos complete]
      obtain ⟨start, invariant⟩ := inPlay.books
      obtain ⟨moved, next, returned, _⟩ := invariant.nextPhase
      refine ⟨.nextPhase, _, by rw [returned]; rfl, ?_, rfl, .nextPhase⟩
      simp [driverStep, playing, complete, returned]
    · have running : game.bettingRoundComplete = false := by simpa using complete
      rw [if_neg complete]
      obtain ⟨event, next, turned, taken, listed, which⟩ :=
        cpuTurn_step alphabet underway blind playing running draws
      refine ⟨event, _, by rw [turned]; rfl, taken, listed, ?_⟩
      rcases which with ⟨rfl, idle⟩ | ⟨decision, rfl, folds⟩
      · exact .skip idle
      · exact .decide decision folds
  · rw [if_neg playing]
    have phase : game.currentPhase = .showdown := by
      have := underway.phase rfl
      cases shown : game.currentPhase <;> simp_all [GamePhase.playing]
    rw [if_pos phase]
    have held : ∀ player ∈ game.remainingPlayers, player.holeCards ≠ [] := by
      intro player member
      obtain ⟨inside, remains⟩ := List.mem_filter.mp member
      exact inPlay.cards player inside remains
    obtain ⟨settled, returned⟩ := PokerGame.conductShowdown_returns held
    refine ⟨.showdown, _, by rw [returned]; rfl, ?_, rfl, .showdown⟩
    simp [driverStep, phase, returned]

/-- What a pass of the loop does: leave it, open a hand, or go on with one. -/
inductive PassKind (maxHands : Nat) (chance : CpuChance) (state : CpuState) :
    Loops.Pass CpuState PyError → Prop
  | left (stage : state.driver.stage = .betweenHands)
      (finished : state.driver.game.isGameOver = true ∨ maxHands ≤ state.handCount) :
      PassKind maxHands chance state (.done state)
  | opens (next : DriverState) (stage : state.driver.stage = .betweenHands)
      (more : state.handCount < maxHands)
      (taken : driverStep state.driver (.newHand chance.shuffle) = some next) :
      PassKind maxHands chance state (.next ⟨state.handCount + 1, next⟩)
  | plays (event : DriverEvent) (next : DriverState) (stage : state.driver.stage = .inHand)
      (taken : driverStep state.driver event = some next)
      (listed : listedStep state.driver event = true)
      (which : HandPass state.driver.game chance.draws next event) :
      PassKind maxHands chance state (.next ⟨state.handCount, next⟩)

/-- A hand that is dealt when the game is not over. -/
theorem Underway.deals {handCount : Nat} (underway : Underway table ⟨.betweenHands, game⟩)
    (alphabet : Numeral.Alphabet) {maxHands : Nat} (displayInterval : Int)
    (chance : Nat → CpuChance) (time : Nat) (going : game.isGameOver = false)
    (more : handCount < maxHands) :
    ∃ opened, driverStep ⟨.betweenHands, game⟩ (.newHand (chance time).shuffle) =
        some ⟨.inHand, opened⟩ ∧
      cpuPass alphabet maxHands displayInterval chance time ⟨handCount, .betweenHands, game⟩ =
        if displayInterval = 0 then .raised (.zeroDivisionError "integer modulo by zero")
        else .next ⟨handCount + 1, .inHand, opened⟩ := by
  obtain ⟨_, opened, dealt, hand⟩ :=
    PokerGame.startNewHand_opens (chance time).shuffle underway.reached.solvent.few going
  have returned : game.startNewHand (chance time).shuffle = .ok opened := dealt
  have phase : opened.currentPhase ≠ .finished := by simp [hand.phase]
  have goes : (game.isGameOver || decide (maxHands ≤ handCount)) = false := by
    simp [going, more]
  refine ⟨opened, ?_, ?_⟩
  · simp [driverStep, going, returned, phase]
  · simp only [cpuPass, goes, returned, if_neg phase, Bool.false_eq_true, ↓reduceIte]

theorem cpuPass_kind (alphabet : Numeral.Alphabet) (maxHands : Nat) {displayInterval : Int}
    (shown : displayInterval ≠ 0) (chance : Nat → CpuChance) {state : CpuState}
    (underway : Underway table state.driver) (blind : 0 < table.bigBlind) (time : Nat) :
    PassKind maxHands (chance time) state
      (cpuPass alphabet maxHands displayInterval chance time state) := by
  obtain ⟨handCount, stage, game⟩ := state
  cases stage with
  | stopped => exact absurd rfl underway.going
  | betweenHands =>
      by_cases finished : (game.isGameOver || decide (maxHands ≤ handCount)) = true
      · unfold cpuPass
        dsimp only
        rw [if_pos finished]
        exact .left rfl (by simpa using finished)
      · simp only [Bool.or_eq_true, decide_eq_true_eq, not_or, Bool.not_eq_true] at finished
        have more : handCount < maxHands := Nat.lt_of_not_le finished.2
        obtain ⟨opened, taken, passed⟩ :=
          underway.deals alphabet displayInterval chance time finished.1 more
        rw [passed, if_neg shown]
        exact .opens _ rfl more taken
  | inHand =>
      obtain ⟨event, next, returned, taken, listed, which⟩ :=
        cpuHand_step alphabet underway blind (chance time).draws
      unfold cpuPass
      dsimp only
      rw [returned]
      exact .plays event next rfl taken listed which

end Passes

/-! ### The run behind the loop -/

/-- The loop has come to a state by a run of the driver in which every decision was listed,
and it has counted the hands. -/
structure PlayedTo (table : Table) (maxHands : Nat) (state : CpuState) : Prop where
  underway : Underway table state.driver
  history : ∃ events, Runs.run driverStep table.start events = some state.driver ∧
    Runs.meets driverStep listedStep table.start events = true ∧
    events.countP DriverEvent.opensHand = state.handCount
  counted : state.handCount ≤ maxHands

theorem PlayedTo.start (table : Table) (maxHands : Nat) :
    PlayedTo table maxHands ⟨0, table.start⟩ :=
  ⟨table.underway_start, ⟨[], rfl, rfl, rfl⟩, Nat.zero_le _⟩

theorem PlayedTo.extend {table : Table} {maxHands : Nat} {state : CpuState} {next : DriverState}
    {event : DriverEvent} (played : PlayedTo table maxHands state)
    (taken : driverStep state.driver event = some next)
    (listed : listedStep state.driver event = true)
    (within : state.handCount + (if event.opensHand then 1 else 0) ≤ maxHands) :
    PlayedTo table maxHands ⟨state.handCount + (if event.opensHand then 1 else 0), next⟩ := by
  obtain ⟨underway, ⟨events, reached, met, count⟩, _⟩ := played
  refine ⟨underway.step taken, ⟨events ++ [event], ?_, ?_, ?_⟩, within⟩
  · exact Runs.run_append.mpr ⟨_, reached, Runs.run_cons_eq_some.mpr ⟨_, taken, rfl⟩⟩
  · refine (Runs.meets_append reached).mpr ⟨met, ?_⟩
    exact (Runs.meets_cons taken).mpr ⟨listed, rfl⟩
  · rw [List.countP_append, count, List.countP_cons, List.countP_nil, Nat.zero_add]

theorem HandPass.not_opens {game : PokerGame} {draws : Draws} {next : DriverState}
    {event : DriverEvent} (pass : HandPass game draws next event) : event.opensHand = false := by
  cases pass <;> rfl

/-- Every pass of the loop leaves it between two hands, with the game over or all hands
played, or extends the run. -/
theorem PlayedTo.pass {table : Table} {maxHands : Nat} {state : CpuState}
    (played : PlayedTo table maxHands state) {chance : CpuChance}
    {result : Loops.Pass CpuState PyError} (kind : PassKind maxHands chance state result) :
    (result = .done state ∧ state.driver.stage = .betweenHands ∧
        (state.driver.game.isGameOver = true ∨ state.handCount = maxHands)) ∨
      ∃ after, result = .next after ∧ PlayedTo table maxHands after := by
  cases kind with
  | left stage finished =>
      refine Or.inl ⟨rfl, stage, finished.imp id fun enough => ?_⟩
      exact Nat.le_antisymm played.counted enough
  | opens next stage more taken =>
      exact Or.inr ⟨_, rfl, played.extend taken rfl more⟩
  | plays event next stage taken listed which =>
      have same := which.not_opens
      have kept := played.extend taken listed (by rw [same]; exact played.counted)
      rw [same] at kept
      exact Or.inr ⟨_, rfl, kept⟩

/-! ### Lucky draws end the game -/

def GamePhase.phasesLeft : GamePhase → Nat
  | .preflop => 5
  | .flop => 4
  | .turn => 3
  | .river => 2
  | .showdown => 1
  | .finished => 0

def handHeight (driver : DriverState) : Nat :=
  if driver.stage = .inHand then
    driver.game.currentPhase.phasesLeft * (driver.game.players.length + 1) +
      driver.game.activePlayers.length
  else 0

def gameHeight (maxHands : Nat) (state : CpuState) : Nat :=
  (maxHands - state.handCount) * (6 * (state.driver.game.players.length + 1)) +
    handHeight state.driver

theorem PokerGame.activePlayers_le (game : PokerGame) :
    game.activePlayers.length ≤ game.players.length := List.length_filter_le _ _

theorem handHeight_lt (driver : DriverState) :
    handHeight driver < 6 * (driver.game.players.length + 1) := by
  have active := driver.game.activePlayers_le
  unfold handHeight
  split
  · have phases : driver.game.currentPhase.phasesLeft ≤ 5 := by
      cases driver.game.currentPhase <;> decide
    have product := Nat.mul_le_mul_right (driver.game.players.length + 1) phases
    omega
  · omega

theorem afterAction_activePlayers {table : Table} {game : PokerGame} {player : Player}
    {action : Action} {amount : Int} {done : Performed} (seated : Seated table game)
    (turn : game.Turn player)
    (performed : game.performAction player player.id action amount = some done) :
    (game.afterAction done player.id action amount).activePlayers.length ≤
        game.activePlayers.length ∧
      (action = .fold → (game.afterAction done player.id action amount).activePlayers.length <
        game.activePlayers.length) := by
  obtain ⟨inside, atTurn⟩ := List.getElem?_eq_some_iff.mp turn.here
  have counted : 0 < game.players.countP fun player => player.status == .active :=
    List.countP_pos_iff.mpr ⟨player, List.mem_of_getElem? turn.here, by simp [turn.active]⟩
  obtain ⟨_, _, frame⟩ := game.afterAction_frame done player.id action amount
  have written := PokerGame.commitAction_players seated turn performed
  unfold PokerGame.activePlayers
  rw [frame]
  dsimp only
  rw [written, ← List.countP_eq_length_filter, ← List.countP_eq_length_filter,
    List.countP_set inside, atTurn]
  simp only [turn.active, beq_self_eq_true, ↓reduceIte]
  refine ⟨by split <;> omega, ?_⟩
  rintro rfl
  simp only [PokerGame.performAction, Option.some.injEq] at performed
  rw [← performed]
  simp only [Player.fold, reduceCtorEq, beq_iff_eq, ↓reduceIte]
  omega

theorem nextPhase_later {table : Table} {state next : DriverState} (reached : Reached table state)
    (taken : driverStep state .nextPhase = some next) :
    next.stage = .inHand ∧
      next.game.currentPhase.phasesLeft < state.game.currentPhase.phasesLeft ∧
      next.game.players.length = state.game.players.length ∧
      next.game.stackTotal = state.game.stackTotal := by
  have stays := nextPhase_stays taken
  obtain ⟨_, playing, complete, moved, returned, stage⟩ := driverStep_nextPhase taken
  refine ⟨stays, ?_⟩
  rcases PokerGame.advanceToNextPhase_cases reached.solvent.served with
    ⟨refused, _⟩ | ⟨_, _, shown⟩ | ⟨_, _, phase, count, describe, street, _, _, _, _, opened⟩
  · rw [refused, Except.ok.injEq, Prod.mk.injEq] at returned
    rw [stage, ← returned.1] at stays
    cases stays
  · rw [shown, Except.ok.injEq, Prod.mk.injEq] at returned
    rw [← returned.2]
    refine ⟨?_, rfl, rfl⟩
    cases before : state.game.currentPhase <;> rw [before] at playing
    case showdown => cases playing
    case finished => cases playing
    all_goals simp [GamePhase.phasesLeft]
  · rw [opened, Except.ok.injEq, Prod.mk.injEq] at returned
    obtain ⟨_, _, frame, _⟩ :=
      (state.game.dealtStreet count phase describe).startNewBettingRound_spec
    rw [← returned.2, frame]
    refine ⟨?_, by simp [PokerGame.dealtStreet], ?_⟩
    · cases before : state.game.currentPhase <;> rw [before] at street <;> cases street <;>
        simp [GamePhase.phasesLeft, PokerGame.dealtStreet]
    · simp only [PokerGame.stackTotal, List.map_map]
      rfl

/-- No step inside a hand lifts what is left of it; only skips and decisions other than a fold
may leave it as it is. -/
theorem handHeight_step {table : Table} {state next : DriverState} {event : DriverEvent}
    (reached : Reached table state) (inHand : state.stage = .inHand)
    (taken : driverStep state event = some next) :
    next.game.players.length = state.game.players.length ∧
      handHeight next ≤ handHeight state ∧
      (event = .nextPhase ∨ event = .showdown ∨ event = .decide ⟨.fold, 0⟩ →
        handHeight next < handHeight state) := by
  unfold handHeight
  rw [if_pos inHand]
  cases event with
  | newHand shuffle =>
      obtain ⟨stage, _⟩ := driverStep_newHand taken
      rw [inHand] at stage
      cases stage
  | skip =>
      obtain ⟨_, _, _, _, rfl⟩ := driverStep_skip taken
      obtain ⟨_, _, frame⟩ := state.game.advance_frame
      rw [frame]
      refine ⟨rfl, Nat.le_refl _, ?_⟩
      rintro (phase | shown | folds)
      · cases phase
      · cases shown
      · cases folds
  | decide decision =>
      obtain ⟨_, _, _, player, action, amount, done, turn, performed, rfl, which⟩ :=
        reached.decided taken
      obtain ⟨fewer, folded⟩ := afterAction_activePlayers reached.seated turn performed
      have size := PokerGame.afterAction_length reached.seated turn performed
      obtain ⟨_, _, frame⟩ := state.game.afterAction_frame done player.id action amount
      have phase : (state.game.afterAction done player.id action amount).currentPhase =
          state.game.currentPhase := by rw [frame]; rfl
      simp only [phase, size, ↓reduceIte]
      refine ⟨trivial, by omega, ?_⟩
      rintro (phase | shown | folds)
      · cases phase
      · cases shown
      · have folding : action = .fold := by
          rcases which with ⟨same, _⟩ | ⟨same, _⟩
          · rw [same, DriverEvent.decide.inj folds]
          · exact same
        have := folded folding
        omega
  | nextPhase =>
      obtain ⟨stays, later, size, _⟩ := nextPhase_later reached taken
      have active := next.game.activePlayers_le
      have product := Nat.mul_le_mul_right (state.game.players.length + 1) later
      rw [Nat.succ_mul] at product
      rw [if_pos stays, size]
      rw [size] at active
      exact ⟨rfl, by omega, fun _ => by omega⟩
  | showdown =>
      obtain ⟨_, phase, result, returned, stage⟩ := driverStep_showdown taken
      have size : next.game.players.length = state.game.players.length := by
        have ids := congrArg List.length (PokerGame.conductShowdown_seats returned).1
        simpa using ids
      rw [stage, phase]
      simp only [reduceCtorEq, ↓reduceIte, GamePhase.phasesLeft]
      exact ⟨size, Nat.zero_le _, fun _ => by omega⟩

/-- No pass lifts what is left of the game, and one that does not lower it is a skip or a
decision drawn above the fold. -/
theorem gameHeight_pass {table : Table} {maxHands : Nat} {state after : CpuState}
    {chance : CpuChance} (played : PlayedTo table maxHands state)
    (kind : PassKind maxHands chance state (.next after)) :
    gameHeight maxHands after < gameHeight maxHands state ∨
      (gameHeight maxHands after = gameHeight maxHands state ∧
        (driverStep state.driver .skip = some after.driver ∨
          RandomPlayer.actionWeights.fold ≤ chance.draws.point)) := by
  have reached := played.underway.reached
  cases kind with
  | opens next stage more taken =>
      left
      have size : next.game.players.length = state.driver.game.players.length := by
        rw [(reached.step taken).seated.length, reached.seated.length]
      have small := handHeight_lt next
      unfold gameHeight
      dsimp only
      rw [size] at small ⊢
      generalize 6 * (state.driver.game.players.length + 1) = bound at small ⊢
      obtain ⟨left, same⟩ : ∃ left, maxHands - state.handCount = left + 1 :=
        ⟨maxHands - state.handCount - 1, by omega⟩
      have fewer : maxHands - (state.handCount + 1) = left := by omega
      rw [same, fewer, Nat.succ_mul]
      omega
  | plays event next stage taken listed which =>
      obtain ⟨size, low, lower⟩ := handHeight_step reached stage taken
      have level : ∀ {relation : Nat → Nat → Prop},
          (∀ base left right, relation left right → relation (base + left) (base + right)) →
          relation (handHeight next) (handHeight state.driver) →
          relation (gameHeight maxHands ⟨state.handCount, next⟩) (gameHeight maxHands state) := by
        intro relation shifts holds
        unfold gameHeight
        rw [size]
        exact shifts _ _ _ holds
      by_cases strict : handHeight next < handHeight state.driver
      · exact Or.inl (level (fun base _ _ less => Nat.add_lt_add_left less base) strict)
      · right
        refine ⟨level (fun base _ _ same => congrArg (base + ·) same) (by omega), ?_⟩
        cases which with
        | skip idle => exact Or.inl taken
        | decide decision folds =>
            right
            by_contra low
            exact strict (lower (Or.inr (Or.inr (by rw [folds (by omega)]))))
        | nextPhase => exact absurd (lower (Or.inl rfl)) strict
        | showdown => exact absurd (lower (Or.inr (Or.inl rfl))) strict

/-- A skip reaches a player who can act, or closes the round. -/
theorem no_skip_twice {table : Table} {state middle after : DriverState}
    (reached : Reached table state) (first : driverStep state .skip = some middle) :
    driverStep middle .skip ≠ some after := by
  intro second
  obtain ⟨stage, _, _, _, rfl⟩ := driverStep_skip first
  obtain ⟨_, _, running, idle, _⟩ := driverStep_skip second
  rcases state.game.advance_active (reached.inPlay stage).turn with closed | active
  · rw [closed] at running
    cases running
  · rw [active] at idle
    cases idle

/-- The draws of two passes in a row that would make a player fold. -/
def FoldDraws (chance : Nat → CpuChance) (time : Nat) : Prop :=
  (chance time).draws.point < RandomPlayer.actionWeights.fold ∧
    (chance (time + 1)).draws.point < RandomPlayer.actionWeights.fold

theorem gameHeight_foldDraws {table : Table} {alphabet : Numeral.Alphabet} {maxHands : Nat}
    {displayInterval : Int} {chance : Nat → CpuChance} {time : Nat} {state after : CpuState}
    (shown : displayInterval ≠ 0) (blind : 0 < table.bigBlind)
    (played : PlayedTo table maxHands state)
    (lucky : FoldDraws chance time)
    (ran : Loops.runFor (cpuPass alphabet maxHands displayInterval chance) 2 time state =
      .next after) :
    gameHeight maxHands after < gameHeight maxHands state := by
  have first := cpuPass_kind alphabet maxHands shown chance played.underway blind time
  cases taken : cpuPass alphabet maxHands displayInterval chance time state with
  | done final =>
      rw [Loops.runFor_done taken] at ran
      cases ran
  | raised fault =>
      rw [taken] at first
      cases first
  | next middle =>
      rw [Loops.runFor_next taken] at ran
      rw [taken] at first
      have reachedMiddle : PlayedTo table maxHands middle := by
        rcases played.pass first with ⟨left, _⟩ | ⟨other, same, kept⟩
        · cases left
        · cases same
          exact kept
      have second :=
        cpuPass_kind alphabet maxHands shown chance reachedMiddle.underway blind (time + 1)
      cases further : cpuPass alphabet maxHands displayInterval chance (time + 1) middle with
      | done final =>
          rw [Loops.runFor_done further] at ran
          cases ran
      | raised fault =>
          rw [further] at second
          cases second
      | next final =>
          rw [Loops.runFor_next further] at ran
          cases ran
          rw [further] at second
          rcases gameHeight_pass played first with lower | ⟨level, skipped | high⟩
          · rcases gameHeight_pass reachedMiddle second with less | ⟨same, _⟩ <;> omega
          · rcases gameHeight_pass reachedMiddle second with less | ⟨same, again | high⟩
            · omega
            · exact absurd again (no_skip_twice played.underway.reached skipped)
            · exact absurd lucky.2 (by omega)
          · exact absurd lucky.1 (by omega)

section Game

variable {table : Table} (alphabet : Numeral.Alphabet) {maxHands : Nat} {displayInterval : Int}
  (chance : Nat → CpuChance)

theorem cpuPass_keeps (shown : displayInterval ≠ 0) (blind : 0 < table.bigBlind) (time : Nat)
    (state : CpuState) (played : PlayedTo table maxHands state) :
    (∃ final, cpuPass alphabet maxHands displayInterval chance time state = .done final ∧
        final.driver.stage = .betweenHands ∧
        (final.driver.game.isGameOver = true ∨ final.handCount = maxHands) ∧
        PlayedTo table maxHands final) ∨
      ∃ after, cpuPass alphabet maxHands displayInterval chance time state = .next after ∧
        PlayedTo table maxHands after ∧
        gameHeight maxHands after ≤ gameHeight maxHands state := by
  have kind := cpuPass_kind alphabet maxHands shown chance played.underway blind time
  rcases played.pass kind with ⟨left, stage, finished⟩ | ⟨after, taken, kept⟩
  · exact Or.inl ⟨state, left, stage, finished, played⟩
  · rw [taken] at kind
    refine Or.inr ⟨after, taken, kept, ?_⟩
    rcases gameHeight_pass played kind with lower | ⟨level, _⟩
    · exact Nat.le_of_lt lower
    · exact Nat.le_of_eq level

/-- With the interval 0 the first hand raises, before anyone has acted. -/
theorem cpuPass_divides (more : 0 < maxHands) (passes : Nat) :
    Loops.runFor (cpuPass alphabet maxHands 0 chance) (passes + 1) 0 ⟨0, table.start⟩ =
      .raised (.zeroDivisionError "integer modulo by zero") := by
  obtain ⟨_, _, passed⟩ := table.underway_start.deals alphabet 0 chance 0
    table.start_going more
  exact Loops.runFor_raised passed passes

theorem cpuPass_no_hands (displayInterval : Int) :
    cpuPass alphabet 0 displayInterval chance 0 ⟨0, table.start⟩ = .done ⟨0, table.start⟩ := by
  simp [cpuPass, Table.start]

/-- The loop of the random players never raises, whatever is drawn, unless it divides by an
interval of 0. -/
theorem cpuPass_never_raises (blind : 0 < table.bigBlind) :
    (∀ passes fault, Loops.runFor (cpuPass alphabet maxHands displayInterval chance) passes 0
        ⟨0, table.start⟩ ≠ .raised fault) ↔ displayInterval ≠ 0 ∨ maxHands = 0 := by
  constructor
  · intro never
    by_contra both
    rw [not_or, not_not] at both
    obtain ⟨rfl, more⟩ := both
    exact never 1 _ (cpuPass_divides alphabet chance (Nat.pos_of_ne_zero more) 0)
  · rintro (shown | none) passes fault raised
    · rcases Loops.runFor_keeps (PlayedTo table maxHands) _ (gameHeight maxHands)
        (fun time state => cpuPass_keeps alphabet chance shown blind time state) passes
        (PlayedTo.start table maxHands) with ⟨final, ended, _⟩ | ⟨after, reached, _⟩
      · rw [raised] at ended
        cases ended
      · rw [raised] at reached
        cases reached
    · subst none
      cases passes with
      | zero => cases raised
      | succ passes =>
          rw [Loops.runFor_done (cpuPass_no_hands alphabet chance displayInterval)] at raised
          cases raised

end Game

/-- A game of random players: whatever is drawn no pass raises, unless the first hand divides by
a display interval of 0; and as long as two passes in a row draw a fold infinitely often the
loop is left between two hands, with one player holding chips or all hands played. -/
theorem cpu_game_ends (table : Table) (alphabet : Numeral.Alphabet) (maxHands : Nat)
    (displayInterval : Int) (chance : Nat → CpuChance) (blind : 0 < table.bigBlind) :
    ((∀ passes fault, Loops.runFor (cpuPass alphabet maxHands displayInterval chance) passes 0
        ⟨0, table.start⟩ ≠ .raised fault) ↔ displayInterval ≠ 0 ∨ maxHands = 0) ∧
    (displayInterval ≠ 0 → (∀ time, ∃ later, time ≤ later ∧ FoldDraws chance later) →
      ∃ passes final, Loops.runFor (cpuPass alphabet maxHands displayInterval chance) passes 0
          ⟨0, table.start⟩ = .done final ∧
        final.driver.stage = .betweenHands ∧
        (final.driver.game.isGameOver = true ∨ final.handCount = maxHands) ∧
        ∃ events, Runs.run driverStep table.start events = some final.driver ∧
          Runs.meets driverStep listedStep table.start events = true ∧
          events.countP DriverEvent.opensHand = final.handCount) := by
  refine ⟨cpuPass_never_raises alphabet chance blind, fun shown often => ?_⟩
  obtain ⟨passes, final, ended, stage, finished, played⟩ := Loops.done_eventually
    (PlayedTo table maxHands) _ (gameHeight maxHands) (FoldDraws chance) 2
    (fun time state => cpuPass_keeps alphabet chance shown blind time state)
    (fun time state after lucky played ran => gameHeight_foldDraws shown blind played lucky ran)
    often (PlayedTo.start table maxHands) 0
  exact ⟨passes, final, ended, stage, finished, played.history⟩

/-- Ten hands in which everybody always folds. -/
theorem cpu_game_ends_folding :
    ∃ passes final, Loops.runFor (cpuPass .ascii 10 1 fun _ => ⟨.unshuffled, ⟨fun _ => 0, 0⟩⟩)
        passes 0 ⟨0, (cpuOnlyTable 0).start⟩ = .done final ∧
      final.driver.stage = .betweenHands := by
  have low : 0 < RandomPlayer.actionWeights.fold := by decide
  obtain ⟨passes, final, ended, stage, _⟩ := (cpu_game_ends (cpuOnlyTable 0) .ascii 10 1
    (fun _ => ⟨.unshuffled, ⟨fun _ => 0, 0⟩⟩) (by decide)).2 (by decide)
    fun time => ⟨time, Nat.le_refl _, low, low⟩
  exact ⟨passes, final, ended, stage⟩

end Holdem
