import Holdem.ChipConservation

set_option autoImplicit false

namespace Holdem

/-! ### Inversion of the driver's steps -/

section Steps

variable {state next : DriverState}

theorem driverStep_newHand {shuffle : Shuffle}
    (taken : driverStep state (.newHand shuffle) = some next) :
    state.stage = .betweenHands ∧ state.game.isGameOver = false ∧
      ∃ opened, state.game.startNewHand shuffle = .ok opened ∧
        next = ⟨if opened.currentPhase = .finished then .stopped else .inHand, opened⟩ := by
  obtain ⟨stage, game⟩ := state
  cases stage <;> delta driverStep at taken <;> dsimp only at taken
  case betweenHands =>
    split at taken
    · cases taken
    · rename_i playing
      split at taken
      · cases taken
      · rename_i opened returned
        cases taken
        exact ⟨rfl, by simpa using playing, opened, returned, rfl⟩
  case inHand => cases taken
  case stopped => cases taken

theorem driverStep_skip (taken : driverStep state .skip = some next) :
    state.stage = .inHand ∧ state.game.currentPhase.playing = true ∧
      state.game.bettingRoundComplete = false ∧
      state.game.isActive state.game.currentPlayerIndex = false ∧
      next = ⟨.inHand, state.game.advanceToNextPlayer⟩ := by
  obtain ⟨stage, game⟩ := state
  cases stage <;> delta driverStep at taken <;> dsimp only at taken
  case inHand =>
    split at taken
    · rename_i enabled
      cases taken
      simp only [Bool.and_eq_true, Bool.not_eq_true'] at enabled
      exact ⟨rfl, enabled.1.1, enabled.1.2, enabled.2, rfl⟩
    · cases taken
  case betweenHands => cases taken
  case stopped => cases taken

theorem driverStep_decide {decision : Decision}
    (taken : driverStep state (.decide decision) = some next) :
    state.stage = .inHand ∧ state.game.currentPhase.playing = true ∧
      state.game.bettingRoundComplete = false ∧
      ∃ player, state.game.players[state.game.currentPlayerIndex]? = some player ∧
        player.status = .active ∧
        next = ⟨.inHand, state.game.decideOrFold player.id decision⟩ := by
  obtain ⟨stage, game⟩ := state
  cases stage <;> delta driverStep at taken <;> dsimp only at taken
  case inHand =>
    split at taken
    · rename_i enabled
      simp only [Bool.and_eq_true, Bool.not_eq_true'] at enabled
      split at taken
      · cases taken
      · rename_i player here
        split at taken
        · rename_i active
          cases taken
          exact ⟨rfl, enabled.1, enabled.2, player, here, active, rfl⟩
        · cases taken
    · cases taken
  case betweenHands => cases taken
  case stopped => cases taken

theorem driverStep_nextPhase (taken : driverStep state .nextPhase = some next) :
    state.stage = .inHand ∧ state.game.currentPhase.playing = true ∧
      state.game.bettingRoundComplete = true ∧
      ∃ moved, state.game.advanceToNextPhase = .ok (moved, next.game) ∧
        next.stage = if moved then .inHand else .betweenHands := by
  obtain ⟨stage, game⟩ := state
  cases stage <;> delta driverStep at taken <;> dsimp only at taken
  case inHand =>
    split at taken
    · rename_i enabled
      simp only [Bool.and_eq_true] at enabled
      split at taken
      · cases taken
      · rename_i moved opened returned
        cases taken
        exact ⟨rfl, enabled.1, enabled.2, moved, returned, rfl⟩
    · cases taken
  case betweenHands => cases taken
  case stopped => cases taken

theorem driverStep_showdown (taken : driverStep state .showdown = some next) :
    state.stage = .inHand ∧ state.game.currentPhase = .showdown ∧
      ∃ result, state.game.conductShowdown = .ok (next.game, result) ∧
        next.stage = .betweenHands := by
  obtain ⟨stage, game⟩ := state
  cases stage <;> delta driverStep at taken <;> dsimp only at taken
  case inHand =>
    split at taken
    · rename_i shown
      split at taken
      · cases taken
      · rename_i settled result returned
        cases taken
        exact ⟨rfl, shown, result, returned, rfl⟩
    · cases taken
  case betweenHands => cases taken
  case stopped => cases taken

end Steps

theorem PokerGame.getPlayer_of_mem {game : PokerGame}
    (distinct : (game.players.map Player.id).Nodup) {player : Player}
    (member : player ∈ game.players) : game.getPlayer player.id = some player := by
  have present : (game.getPlayer player.id).isSome = true := by
    unfold PokerGame.getPlayer
    rw [List.find?_isSome]
    exact ⟨player, member, by simp⟩
  obtain ⟨found, equal⟩ := Option.isSome_iff_exists.mp present
  obtain ⟨seat, there, id, _⟩ := PokerGame.putPlayer_eq_set equal
  rw [equal, List.inj_on_of_nodup_map distinct (List.mem_of_getElem? there) member id]

/-- The players sit at the table they started at, each at the seat of its id. -/
structure Seated (table : Table) (game : PokerGame) : Prop where
  ids : game.players.map Player.id = (List.range table.chips.length).map Int.ofNat
  blinds : game.smallBlind = table.smallBlind ∧ game.bigBlind = table.bigBlind

namespace Seated

variable {table : Table} {game : PokerGame}

theorem length (seated : Seated table game) : game.players.length = table.chips.length := by
  simpa using congrArg List.length seated.ids

theorem id_eq (seated : Seated table game) {seat : Nat} {player : Player}
    (here : game.players[seat]? = some player) : player.id = seat := by
  have image := congrArg (fun ids => ids[seat]?) seated.ids
  have inside : seat < table.chips.length := by
    rw [← seated.length]
    exact (List.getElem?_eq_some_iff.mp here).1
  simp only [List.getElem?_map, here, List.getElem?_range inside, Option.map_some,
    Option.some.injEq] at image
  exact image

theorem distinct (seated : Seated table game) : (game.players.map Player.id).Nodup := by
  rw [seated.ids]
  exact List.nodup_range.map fun left right same => Int.ofNat.inj same

theorem getPlayer (seated : Seated table game) {seat : Nat} {player : Player}
    (here : game.players[seat]? = some player) : game.getPlayer player.id = some player :=
  PokerGame.getPlayer_of_mem seated.distinct (List.mem_of_getElem? here)

theorem congr (seated : Seated table game) {next : PokerGame}
    (ids : next.players.map Player.id = game.players.map Player.id)
    (small : next.smallBlind = game.smallBlind) (big : next.bigBlind = game.bigBlind) :
    Seated table next :=
  ⟨ids.trans seated.ids, small.trans seated.blinds.1, big.trans seated.blinds.2⟩

end Seated

namespace PokerGame

def afterAction (game : PokerGame) (done : Performed) (playerId : Int) (action : Action)
    (amount : Int) : PokerGame :=
  (game.commitAction done playerId action amount).advanceToNextPlayer.checkBettingRoundComplete

theorem afterAction_frame (game : PokerGame) (done : Performed) (playerId : Int) (action : Action)
    (amount : Int) :
    ∃ seat complete, game.afterAction done playerId action amount =
      { game.commitAction done playerId action amount with
        currentPlayerIndex := seat
        bettingRoundComplete := complete } :=
  (game.commitAction done playerId action amount).advance_check_frame

theorem advance_frame (game : PokerGame) :
    ∃ seat complete, game.advanceToNextPlayer =
      { game with currentPlayerIndex := seat, bettingRoundComplete := complete } := by
  unfold advanceToNextPlayer
  dsimp only
  split <;> exact ⟨_, _, rfl⟩

theorem advance_stays_complete {game : PokerGame} (complete : game.bettingRoundComplete = true) :
    game.advanceToNextPlayer.bettingRoundComplete = true := by
  unfold advanceToNextPlayer
  dsimp only
  split
  · exact complete
  · rfl

theorem advance_turn {game : PokerGame} (inside : game.currentPlayerIndex < game.players.length) :
    game.advanceToNextPlayer.currentPlayerIndex < game.players.length := by
  unfold advanceToNextPlayer
  dsimp only
  split
  · rename_i seat found
    exact ((Clockwise.search_eq_some_iff inside (Nat.le_refl _)).mp found).1
  · exact inside

theorem advance_check_turn {game : PokerGame}
    (inside : game.currentPlayerIndex < game.players.length) :
    game.advanceToNextPlayer.checkBettingRoundComplete.currentPlayerIndex <
      game.players.length := by
  have kept := advance_turn inside
  unfold checkBettingRoundComplete
  split <;> exact kept

/-- The player whose turn it is, and who may act. -/
structure Turn (game : PokerGame) (player : Player) : Prop where
  here : game.players[game.currentPlayerIndex]? = some player
  active : player.status = .active

theorem process_of_found {game : PokerGame} {player : Player}
    (found : game.getPlayer player.id = some player) (own : player.id = game.currentPlayerIndex)
    (active : player.status = .active) (action : Action) (amount : Int) :
    game.processPlayerAction player.id action amount =
      match game.performAction player player.id action amount with
      | none => (false, game)
      | some done => (true, game.afterAction done player.id action amount) := by
  unfold processPlayerAction
  rw [if_neg (by simpa using own), found]
  dsimp only
  rw [if_neg (by simpa using active)]
  rfl

theorem process_of_turn {table : Table} {game : PokerGame} {player : Player}
    (seated : Seated table game) (turn : game.Turn player) (action : Action) (amount : Int) :
    game.processPlayerAction player.id action amount =
      match game.performAction player player.id action amount with
      | none => (false, game)
      | some done => (true, game.afterAction done player.id action amount) :=
  process_of_found (seated.getPlayer turn.here) (seated.id_eq turn.here) turn.active action amount

theorem commitAction_players {table : Table} {game : PokerGame} {player : Player}
    {action : Action} {amount : Int} {done : Performed}
    (seated : Seated table game) (turn : game.Turn player)
    (performed : game.performAction player player.id action amount = some done) :
    (game.commitAction done player.id action amount).players =
      game.players.set game.currentPlayerIndex done.player := by
  obtain ⟨seat, here, id, written⟩ := putPlayer_eq_set (seated.getPlayer turn.here)
  have same : seat = game.currentPlayerIndex := by
    have atSeat := seated.id_eq here
    have atTurn := seated.id_eq turn.here
    omega
  subst same
  exact written done.player (performAction_keeps performed).1

/-- The action a driver ends up performing for a decision: the decision itself, or a fold
when it is rejected. -/
theorem decideOrFold_spec {table : Table} {game : PokerGame} {player : Player}
    (seated : Seated table game) (turn : game.Turn player) (decision : Decision) :
    ∃ action amount done, game.performAction player player.id action amount = some done ∧
      game.decideOrFold player.id decision = game.afterAction done player.id action amount ∧
      ((action = decision.action ∧ amount = decision.amount) ∨
        (action = .fold ∧
          game.performAction player player.id decision.action decision.amount = none)) := by
  unfold decideOrFold
  rw [process_of_turn seated turn]
  cases performed : game.performAction player player.id decision.action decision.amount with
  | some done => exact ⟨decision.action, decision.amount, done, performed, rfl, Or.inl ⟨rfl, rfl⟩⟩
  | none =>
      refine ⟨.fold, 0, _, rfl, ?_, Or.inr ⟨rfl, rfl⟩⟩
      simp only [Bool.false_eq_true, ↓reduceIte]
      rw [process_of_turn seated turn]
      rfl

theorem openSeat_funded {game : PokerGame} {button small big seat : Nat} {player : Player}
    (active : (game.openSeat button small big seat player).status = .active) :
    0 < (game.openSeat button small big seat player).chips := by
  have betting : ∀ (fresh : Player) (blind : Int), fresh.chips = player.chips →
      (fresh.status = .active → 0 < fresh.chips) →
      (fresh.bet blind).2.status = .active → 0 < (fresh.bet blind).2.chips := by
    intro fresh blind same before after
    unfold Player.bet at after ⊢
    split
    · rename_i nothing
      rw [if_pos nothing] at after
      exact before after
    · rename_i something
      rw [if_neg something] at after
      dsimp only at after ⊢
      split at after
      · cases after
      · omega
  have reset : player.resetForNewHand.status = .active → 0 < player.resetForNewHand.chips := by
    intro alive
    exact (reset_status player).mp (by rw [alive]; decide)
  revert active
  unfold openSeat
  dsimp only
  split
  · exact betting _ _ rfl reset
  · split
    · exact betting _ _ rfl reset
    · exact reset

theorem nextPhase_seats {game next : PokerGame} {moved : Bool}
    (served : game.currentPhase.cardsNeeded ≤ game.deck.length)
    (returned : game.advanceToNextPhase = .ok (moved, next)) :
    next.players.map Player.id = game.players.map Player.id ∧
      next.smallBlind = game.smallBlind ∧ next.bigBlind = game.bigBlind := by
  rcases advanceToNextPhase_frame served returned with ⟨phase, rfl⟩ |
    ⟨phase, count, describe, seat, complete, rfl⟩
  · exact ⟨rfl, rfl, rfl⟩
  · refine ⟨?_, rfl, rfl⟩
    simp only [List.map_map]
    rfl

theorem startNewHand_opens {game : PokerGame} (shuffle : Shuffle)
    (few : game.players.length ≤ 10) (going : game.isGameOver = false) :
    ∃ button next, game.startNewHand shuffle = .ok next ∧
      OpenedHand game button (game.readyForBlinds shuffle).blindSeats.1
        (game.readyForBlinds shuffle).blindSeats.2 next := by
  rcases game.startNewHand_spec shuffle few with ⟨lone, _⟩ | opened
  · have count : (game.resetForHand shuffle).survivorSeats.length =
        (game.players.filter fun player => decide (player.chips > 0)).length := by
      unfold survivorSeats
      rw [length_seatsWhere]
      simp only [resetForHand, List.filter_map, List.length_map]
      congr 2
      funext player
      have alive := reset_status player
      by_cases chips : 0 < player.chips
      · simpa [chips] using alive.mpr chips
      · simpa [chips] using alive.not.mpr chips
    simp only [isGameOver, decide_eq_false_iff_not] at going
    omega
  · exact opened

end PokerGame

theorem Seated.afterAction {table : Table} {game : PokerGame} (seated : Seated table game)
    {player : Player} (turn : game.Turn player) {action : Action} {amount : Int} {done : Performed}
    (performed : game.performAction player player.id action amount = some done) :
    Seated table (game.afterAction done player.id action amount) := by
  obtain ⟨seat, complete, frame⟩ := game.afterAction_frame done player.id action amount
  rw [frame]
  refine seated.congr ?_ rfl rfl
  change (game.commitAction done player.id action amount).players.map Player.id = _
  rw [PokerGame.commitAction_players seated turn performed]
  exact PokerGame.map_set_of_eq turn.here (PokerGame.performAction_keeps performed).1

/-- What is true of every state inside a hand, whatever the players decide. -/
structure InPlay (game : PokerGame) : Prop where
  books : ∃ start, HandInvariant start game
  funded : ∀ player ∈ game.players, player.status = .active → 0 < player.chips
  cards : ∀ player ∈ game.players, player.status.remains = true → player.holeCards ≠ []
  bet : 0 ≤ game.currentBet
  dealer : game.dealerButton < game.players.length
  turn : game.currentPlayerIndex < game.players.length

theorem OpenedHand.inPlay {game next : PokerGame} {button small big : Nat}
    (hand : OpenedHand game button small big next)
    (solvent : ∀ player ∈ game.players, 0 ≤ player.chips) : InPlay next := by
  have inside : ∀ {seat : Nat}, game.HasChips seat → seat < next.players.length := by
    rintro seat ⟨player, here, _⟩
    rw [hand.length]
    exact (List.getElem?_eq_some_iff.mp here).1
  have accounts := hand.accounts solvent
  refine ⟨⟨game, accounts, ?_⟩, ?_, ?_, ?_, ?_, inside hand.turnAlive⟩
  · have enough := hand.deck
    rw [hand.phase]
    exact Nat.le_trans (by decide) enough
  · intro player member active
    obtain ⟨seat, there⟩ := List.mem_iff_getElem?.mp member
    obtain ⟨before, cards, here, rfl⟩ := hand.player_of_seat there
    exact PokerGame.openSeat_funded active
  · intro player member remains
    have alive : player.status ≠ .busted := by
      intro busted
      rw [busted] at remains
      cases remains
    intro empty
    have two := hand.cards player member alive
    rw [empty] at two
    cases two
  · obtain ⟨player, here, _⟩ := hand.bigAlive
    have bigIn : big < next.players.length := inside hand.bigAlive
    rw [hand.currentBet _ (List.getElem?_eq_getElem bigIn)]
    exact (accounts.bounds _ (List.getElem_mem bigIn)).2.1
  · rw [hand.dealer]
    exact inside hand.buttonAlive

namespace InPlay

variable {table : Table} {game : PokerGame}

theorem bounds (inPlay : InPlay game) : ∀ player ∈ game.players,
    0 ≤ player.chips ∧ 0 ≤ player.currentBet ∧ player.currentBet ≤ player.totalBetThisHand := by
  obtain ⟨start, invariant⟩ := inPlay.books
  exact invariant.accounts.bounds

theorem afterAction (inPlay : InPlay game) (seated : Seated table game) {player : Player}
    (turn : game.Turn player) {action : Action} {amount : Int} {done : Performed}
    (performed : game.performAction player player.id action amount = some done) :
    InPlay (game.afterAction done player.id action amount) := by
  have member := List.mem_of_getElem? turn.here
  have written := PokerGame.commitAction_players seated turn performed
  have funded := inPlay.funded player member turn.active
  have pays := PokerGame.performAction_pays (Int.le_of_lt funded) performed
  have size : (game.commitAction done player.id action amount).players.length =
      game.players.length := by rw [written, List.length_set]
  have books : ∃ start, HandInvariant start (game.afterAction done player.id action amount) := by
    obtain ⟨start, invariant⟩ := inPlay.books
    refine ⟨start, ?_⟩
    have kept := invariant.process player.id action amount
    rwa [PokerGame.process_of_turn seated turn, performed] at kept
  have turnInside : (game.afterAction done player.id action amount).currentPlayerIndex <
      game.players.length := by
    rw [← size]
    exact PokerGame.advance_check_turn (by rw [size]; exact inPlay.turn)
  obtain ⟨seat, complete, frame⟩ := game.afterAction_frame done player.id action amount
  rw [frame] at books turnInside ⊢
  refine ⟨books, ?_, ?_, ?_, ?_, ?_⟩
  · intro other inside active
    dsimp only at inside
    rw [written] at inside
    rcases List.mem_or_eq_of_mem_set inside with old | rfl
    · exact inPlay.funded other old active
    · exact PokerGame.performAction_funded funded performed active
  · intro other inside remains
    dsimp only at inside
    rw [written] at inside
    rcases List.mem_or_eq_of_mem_set inside with old | rfl
    · exact inPlay.cards other old remains
    · rw [(PokerGame.performAction_keeps performed).2.1]
      exact inPlay.cards player member (by rw [turn.active]; rfl)
  · have before := (inPlay.bounds player member).2.1
    have paid := pays.paid
    exact PokerGame.performAction_bet_nonneg inPlay.bet (by rw [pays.bet]; omega) performed
  · change game.dealerButton < (game.commitAction done player.id action amount).players.length
    rw [size]
    exact inPlay.dealer
  · change seat < (game.commitAction done player.id action amount).players.length
    rw [size]
    exact turnInside

theorem advance (inPlay : InPlay game) : InPlay game.advanceToNextPlayer := by
  obtain ⟨start, invariant⟩ := inPlay.books
  have books := invariant.advance
  have inside := PokerGame.advance_turn inPlay.turn
  obtain ⟨seat, complete, frame⟩ := game.advance_frame
  rw [frame] at books inside ⊢
  exact ⟨⟨start, books⟩, inPlay.funded, inPlay.cards, inPlay.bet, inPlay.dealer, inside⟩

theorem nextPhase (inPlay : InPlay game) {moved : Bool} {next : PokerGame}
    (returned : game.advanceToNextPhase = .ok (moved, next)) : InPlay next := by
  obtain ⟨start, invariant⟩ := inPlay.books
  obtain ⟨_, other, same, books⟩ := invariant.nextPhase
  rw [returned] at same
  cases same
  rcases PokerGame.advanceToNextPhase_cases invariant.served with ⟨refused, _⟩ |
    ⟨_, _, shown⟩ | ⟨_, _, phase, count, describe, _, later, _, _, _, opened⟩
  · rw [refused] at returned
    cases returned
    exact inPlay
  · rw [shown] at returned
    cases returned
    exact ⟨⟨start, books⟩, inPlay.funded, inPlay.cards, inPlay.bet, inPlay.dealer, inPlay.turn⟩
  · rw [opened] at returned
    cases returned
    obtain ⟨seat, complete, frame, _, stays, first⟩ :=
      (game.dealtStreet count phase describe).startNewBettingRound_spec
    rw [frame] at books ⊢
    refine ⟨⟨start, books⟩, ?_, ?_, Int.le_refl 0, ?_, ?_⟩
    · intro player member active
      obtain ⟨before, inside, rfl⟩ := List.mem_map.mp member
      exact inPlay.funded before inside active
    · intro player member remains
      obtain ⟨before, inside, rfl⟩ := List.mem_map.mp member
      exact inPlay.cards before inside remains
    · simpa [PokerGame.dealtStreet] using inPlay.dealer
    · cases done : complete with
      | true => simpa [PokerGame.dealtStreet, stays done] using inPlay.turn
      | false =>
          have acts := (first done later inPlay.dealer).1
          simpa using PokerGame.isActive_lt acts

end InPlay

/-- Every state a driver reaches from a table. -/
structure Reached (table : Table) (state : DriverState) : Prop where
  seated : Seated table state.game
  solvent : Solvent state.game
  inPlay : state.stage = .inHand → InPlay state.game

theorem Table.reached_start (table : Table) : Reached table table.start := by
  refine ⟨⟨?_, rfl, rfl⟩, ⟨?_, ?_, Int.le_refl 0, show 8 ≤ Deck.standard.length by decide⟩, ?_⟩
  · apply List.ext_getElem
    · simp [Table.start, Table.game]
    · intro seat _ _
      simp [Table.start, Table.game]
  · simpa [Table.start, Table.game] using table.seats_le
  · intro player member
    simp only [Table.start, Table.game, List.mem_mapIdx] at member
    obtain ⟨seat, inside, rfl⟩ := member
    exact Int.le_of_lt (table.chips_pos _ (List.getElem_mem inside))
  · intro stage
    cases stage

namespace Reached

variable {table : Table} {state next : DriverState}

/-- A decision of the driver, as the accepted action it ends in. -/
theorem decided (reached : Reached table state) {decision : Decision}
    (taken : driverStep state (.decide decision) = some next) :
    state.stage = .inHand ∧ state.game.currentPhase.playing = true ∧
      state.game.bettingRoundComplete = false ∧
      ∃ player action amount done, state.game.Turn player ∧
        state.game.performAction player player.id action amount = some done ∧
        next = ⟨.inHand, state.game.afterAction done player.id action amount⟩ ∧
        ((action = decision.action ∧ amount = decision.amount) ∨
          (action = .fold ∧ state.game.performAction player player.id decision.action
            decision.amount = none)) := by
  obtain ⟨stage, playing, running, player, here, active, moved⟩ := driverStep_decide taken
  obtain ⟨action, amount, done, performed, result, which⟩ :=
    PokerGame.decideOrFold_spec reached.seated ⟨here, active⟩ decision
  exact ⟨stage, playing, running, player, action, amount, done, ⟨here, active⟩, performed,
    by rw [moved, result], which⟩

theorem phaseMoved (reached : Reached table state)
    (taken : driverStep state .nextPhase = some next) (stays : next.stage = .inHand) :
    state.stage = .inHand ∧ state.game.bettingRoundComplete = true ∧
      (next.game = { state.game with currentPhase := .showdown } ∨
        ∃ phase count describe, phase ≠ .preflop ∧ phase ≠ .showdown ∧ phase ≠ .finished ∧
          2 ≤ state.game.remainingPlayers.length ∧
          next.game = (state.game.dealtStreet count phase describe).startNewBettingRound) := by
  obtain ⟨stage, _, complete, moved, returned, stageAfter⟩ := driverStep_nextPhase taken
  refine ⟨stage, complete, ?_⟩
  rcases PokerGame.advanceToNextPhase_cases reached.solvent.served with ⟨refused, _⟩ |
    ⟨_, _, shown⟩ | ⟨_, several, phase, count, describe, _, later, notShown, notOver, _, opened⟩
  · rw [refused, Except.ok.injEq, Prod.mk.injEq] at returned
    rw [stageAfter, ← returned.1] at stays
    cases stays
  · rw [shown, Except.ok.injEq, Prod.mk.injEq] at returned
    exact Or.inl returned.2.symm
  · rw [opened, Except.ok.injEq, Prod.mk.injEq] at returned
    exact Or.inr ⟨phase, count, describe, later, notShown, notOver, several, returned.2.symm⟩

theorem opened (reached : Reached table state) {shuffle : Shuffle}
    (taken : driverStep state (.newHand shuffle) = some next) :
    state.stage = .betweenHands ∧ next.stage = .inHand ∧
      ∃ button, OpenedHand state.game button (state.game.readyForBlinds shuffle).blindSeats.1
        (state.game.readyForBlinds shuffle).blindSeats.2 next.game := by
  obtain ⟨stage, going, game, returned, moved⟩ := driverStep_newHand taken
  obtain ⟨button, other, same, hand⟩ :=
    PokerGame.startNewHand_opens shuffle reached.solvent.few going
  rw [returned] at same
  cases same
  subst moved
  refine ⟨stage, ?_, button, hand⟩
  rw [hand.phase]
  rfl

theorem step (reached : Reached table state) {event : DriverEvent}
    (taken : driverStep state event = some next) : Reached table next := by
  obtain ⟨seated, solvent, inPlay⟩ := reached
  cases event with
  | newHand shuffle =>
      obtain ⟨_, stage, button, hand⟩ := opened ⟨seated, solvent, inPlay⟩ taken
      have kept := hand.inPlay solvent.chips
      obtain ⟨start, invariant⟩ := kept.books
      have ids : next.game.players.map Player.id = state.game.players.map Player.id :=
        (hand.accounts solvent.chips).ids
      refine ⟨seated.congr ids hand.blinds.1 hand.blinds.2, ?_, fun _ => kept⟩
      have served : next.game.currentPhase.cardsNeeded ≤ next.game.deck.length := invariant.served
      exact HandInvariant.solvent ⟨hand.accounts solvent.chips, served⟩ solvent.few
  | skip =>
      obtain ⟨stage, _, _, _, rfl⟩ := driverStep_skip taken
      have kept := (inPlay stage).advance
      obtain ⟨seat, complete, frame⟩ := state.game.advance_frame
      rw [frame] at kept ⊢
      exact ⟨seated.congr rfl rfl rfl, ⟨solvent.few, solvent.chips, solvent.pot, solvent.served⟩,
        fun _ => kept⟩
  | decide decision =>
      obtain ⟨stage, _, _, player, action, amount, done, turn, performed, rfl, _⟩ :=
        decided ⟨seated, solvent, inPlay⟩ taken
      have kept := (inPlay stage).afterAction seated turn performed
      have paid := solvent.process player.id action amount
      rw [PokerGame.process_of_turn seated turn, performed] at paid
      exact ⟨seated.afterAction turn performed, paid, fun _ => kept⟩
  | nextPhase =>
      obtain ⟨stage, _, _, moved, returned, _⟩ := driverStep_nextPhase taken
      refine ⟨?_, solvent.nextPhase returned, fun _ => (inPlay stage).nextPhase returned⟩
      obtain ⟨ids, small, big⟩ := PokerGame.nextPhase_seats solvent.served returned
      exact seated.congr ids small big
  | showdown =>
      obtain ⟨_, _, result, returned, stage⟩ := driverStep_showdown taken
      obtain ⟨ids, small, big, _⟩ := PokerGame.conductShowdown_seats returned
      obtain ⟨chips, pot, size, deck, phase⟩ :=
        PokerGame.conductShowdown_nonneg solvent.chips solvent.pot returned
      refine ⟨seated.congr ids small big,
        ⟨size ▸ solvent.few, chips, pot, by rw [deck, phase]; exact solvent.served⟩, ?_⟩
      intro other
      rw [stage] at other
      cases other

end Reached

theorem Table.reached (table : Table) {events : List DriverEvent} {state : DriverState}
    (played : Runs.run driverStep table.start events = some state) : Reached table state :=
  Runs.run_invariant_always (Reached table) (fun _ _ _ holds taken => Reached.step holds taken)
    table.reached_start played

end Holdem
