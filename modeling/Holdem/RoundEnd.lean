import Holdem.RoundFacts

set_option autoImplicit false

namespace Holdem

namespace Lap

variable {table : Table} {game : PokerGame} {base : Nat} {player : Player} {action : Action}
  {amount : Int} {done : Performed}

theorem raise (lap : Lap game base) (seated : Seated table game) (inPlay : InPlay game)
    (turn : game.Turn player)
    (performed : game.performAction player player.id action amount = some done)
    (raises : done.Raises game player) :
    (game.afterAction done player.id action amount).bettingRoundComplete = true ∨
      ∃ fresh, Lap (game.afterAction done player.id action amount) fresh := by
  have size := PokerGame.commit_length seated turn performed
  rcases game.afterAction_cases done player.id action amount (size ▸ inPlay.turn) with
    ⟨_, closed⟩ | ⟨next, found, moved⟩
  · exact Or.inl closed
  rw [moved]
  by_cases closed : (game.turnedTo done player.id action amount next).checkBettingRoundComplete
      |>.bettingRoundComplete
  · exact Or.inl closed
  rw [PokerGame.checked_eq (Bool.eq_false_iff.mpr closed)]
  rw [size] at found
  obtain ⟨nextIn, _⟩ := (Clockwise.search_eq_some_iff inPlay.turn (Nat.le_refl _)).mp found
  obtain ⟨fresh, freshIn, zero⟩ := Clockwise.exists_place_zero nextIn
  refine Or.inr ⟨fresh, size ▸ freshIn, Or.inl ⟨?_, raises.flag⟩, ?_, ?_⟩
  · change done.lastRaiserIndex.isSome = true
    rw [raises.raiser]
    rfl
  · intro other member active
    change other.currentBet ≤ done.currentBet
    obtain ⟨seat, here⟩ := List.mem_iff_getElem?.mp member
    rcases PokerGame.commit_seat seated turn performed here with ⟨_, rfl⟩ | ⟨_, there⟩
    · exact Int.le_of_eq raises.bet.symm
    · have before := lap.bounded other (List.mem_of_getElem? there) active
      have higher := raises.higher
      omega
  · intro seat other _ _ before
    change Clockwise.place (game.commitAction done player.id action amount).players.length fresh
      seat < Clockwise.place (game.commitAction done player.id action amount).players.length fresh
        next at before
    rw [size, zero] at before
    cases before

theorem skip (lap : Lap game base) (inside : game.currentPlayerIndex < game.players.length)
    (idle : game.isActive game.currentPlayerIndex = false) :
    game.advanceToNextPlayer.bettingRoundComplete = true ∨ Lap game.advanceToNextPlayer base := by
  unfold PokerGame.advanceToNextPlayer
  dsimp only
  split
  · rename_i next found
    refine Or.inr ⟨lap.inside, lap.anchor, lap.bounded, ?_⟩
    intro seat player here active before
    have acts : game.isActive seat = true := PokerGame.isActive_iff.mpr ⟨player, here, active⟩
    have seatIn := PokerGame.isActive_lt acts
    dsimp only at before
    rcases Clockwise.search_forward_or_wraps lap.inside inside found with
      ⟨_, nearest⟩ | ⟨_, everyone⟩
    · apply lap.behind seat player here active
      by_contra late
      by_cases same : Clockwise.place game.players.length base seat =
          Clockwise.place game.players.length base game.currentPlayerIndex
      · rw [Clockwise.place_injective lap.inside seatIn inside same, idle] at acts
        cases acts
      · have := nearest seat seatIn acts (by omega)
        omega
    · have := (everyone seat seatIn acts).1
      omega
  · exact Or.inl rfl

end Lap

theorem OpenedHand.hasChips_of_active {game next : PokerGame} {button small big : Nat}
    (hand : OpenedHand game button small big next)
    (solvent : ∀ player ∈ game.players, 0 ≤ player.chips) {seat : Nat} {player : Player}
    (here : next.players[seat]? = some player) (active : player.status = .active) :
    game.HasChips seat := by
  obtain ⟨held, cards, there, rfl⟩ := hand.player_of_seat here
  refine ⟨held, there, ?_⟩
  obtain ⟨_, stake, _, bet, total⟩ := game.openSeat_accounts button small big seat
    (solvent held (List.mem_of_getElem? there))
  have funded := PokerGame.openSeat_funded active
  unfold Player.stake at stake
  omega

/-- The first lap of a hand starts from the big blind, when no `ACTIVE` small blind has
bet more. -/
theorem OpenedHand.lap {game next : PokerGame} {shuffle : Shuffle} {button : Nat}
    (hand : OpenedHand game button (game.nextBlinds shuffle).1 (game.nextBlinds shuffle).2 next)
    (small : 0 < game.smallBlind) (big : 0 < game.bigBlind)
    (solvent : ∀ player ∈ game.players, 0 ≤ player.chips)
    (covered : (game.blindPosts shuffle).1 ≤ (game.blindPosts shuffle).2 ∨
      game.smallBlindBroke shuffle = true) :
    Lap next (game.nextBlinds shuffle).2 := by
  have current := hand.currentBet_eq small big solvent
  obtain ⟨before, there, chips⟩ := hand.bigAlive
  have bigIn := (List.getElem?_eq_some_iff.mp there).1
  have bigPost : 0 < (game.blindPosts shuffle).2 := by
    simp only [PokerGame.blindPosts, PokerGame.stackAt, there, Option.map_some, Option.getD_some]
    omega
  refine ⟨by rw [hand.length]; exact bigIn, Or.inr (Or.inr hand.lastRaiser), ?_, ?_⟩
  · intro player member active
    obtain ⟨seat, here⟩ := List.mem_iff_getElem?.mp member
    obtain ⟨bet, stays⟩ := hand.bet_of_seat small big solvent here
    rw [bet, current]
    split
    · exact Int.le_refl _
    · split
      · rename_i atSmall
        rcases covered with enough | broke
        · exact enough
        · rw [stays atSmall active] at broke
          cases broke
      · exact Int.le_of_lt bigPost
  · intro seat player here active earlier
    have order := hand.turnFirst seat (hand.hasChips_of_active solvent here active)
    rw [hand.length] at earlier
    omega

/-- The first lap of a street starts from the dealer. -/
theorem lap_of_street {game : PokerGame} {phase : GamePhase} {count : Nat}
    {describe : List Card → String} (later : phase ≠ .preflop)
    (dealer : game.dealerButton < game.players.length) :
    Lap (game.dealtStreet count phase describe).startNewBettingRound game.dealerButton := by
  obtain ⟨seat, complete, frame, _⟩ :=
    (game.dealtStreet count phase describe).startNewBettingRound_spec
  rw [frame]
  refine ⟨by simpa [PokerGame.dealtStreet] using dealer, Or.inr (Or.inl ⟨rfl, later, rfl⟩), ?_, ?_⟩
  · intro player member _
    obtain ⟨before, _, rfl⟩ := List.mem_map.mp member
    exact Int.le_refl 0
  · intro other player here active before
    obtain ⟨held, at_seat, rfl⟩ := Option.map_eq_some_iff.mp (List.getElem?_map ▸ here)
    rfl

/-- The big blind of a hand about to start posts at least as much as the small blind, or
the small blind posts its last chips. -/
def bigBlindLevel (state : DriverState) (event : DriverEvent) : Bool :=
  match event with
  | .newHand shuffle =>
      decide ((state.game.blindPosts shuffle).1 ≤ (state.game.blindPosts shuffle).2) ||
        state.game.smallBlindBroke shuffle
  | _ => true

def OnLap (state : DriverState) : Prop :=
  state.stage = .inHand → state.game.bettingRoundComplete = false → ∃ base, Lap state.game base

theorem onLap_step {table : Table} {state next : DriverState} {event : DriverEvent}
    (blinds : 0 < table.smallBlind ∧ table.smallBlind ≤ table.bigBlind)
    (reached : Reached table state) (onLap : OnLap state)
    (listed : listedStep state event = true) (level : bigBlindLevel state event = true)
    (taken : driverStep state event = some next) : OnLap next := by
  have bigBlind : 0 < table.bigBlind := by omega
  intro stays running
  cases event with
  | newHand shuffle =>
      obtain ⟨_, _, button, hand⟩ := reached.opened taken
      have small : 0 < state.game.smallBlind := reached.seated.blinds.1 ▸ blinds.1
      have big : 0 < state.game.bigBlind := reached.seated.blinds.2 ▸ bigBlind
      exact ⟨_, OpenedHand.lap hand small big reached.solvent.chips
        (by simpa [bigBlindLevel] using level)⟩
  | skip =>
      obtain ⟨stage, _, open_, idle, rfl⟩ := driverStep_skip taken
      obtain ⟨base, lap⟩ := onLap stage open_
      rcases lap.skip (reached.inPlay stage).turn idle with closed | kept
      · rw [closed] at running
        cases running
      · exact ⟨base, kept⟩
  | decide decision =>
      obtain ⟨stage, _, open_, _⟩ := driverStep_decide taken
      obtain ⟨player, action, amount, done, turn, performed, rfl, outcome, _⟩ :=
        reached.outcome bigBlind listed taken
      obtain ⟨base, lap⟩ := onLap stage open_
      have inPlay := reached.inPlay stage
      rcases outcome with quiet | raises
      · rcases lap.quiet reached.seated inPlay turn performed quiet with closed | ⟨kept, _⟩
        · rw [closed] at running
          cases running
        · exact ⟨base, kept⟩
      · rcases lap.raise reached.seated inPlay turn performed raises with closed | kept
        · rw [closed] at running
          cases running
        · exact kept
  | nextPhase =>
      obtain ⟨stage, complete, shown | ⟨phase, count, describe, later, _, _, _, opened⟩⟩ :=
        reached.phaseMoved taken stays
      · rw [shown, show _ = true from complete] at running
        cases running
      · rw [opened]
        exact ⟨_, lap_of_street later (reached.inPlay stage).dealer⟩
  | showdown =>
      obtain ⟨_, _, _, _, ended⟩ := driverStep_showdown taken
      rw [ended] at stays
      cases stays

/-! ### Quiet actions -/

/-- A sequence of accepted, listed actions none of which lifts the current bet, with seats
that cannot act skipped in between. -/
inductive QuietActions : PokerGame → Nat → PokerGame → Prop
  | none (game : PokerGame) : QuietActions game 0 game
  | skip {game final : PokerGame} {count : Nat}
      (idle : game.isActive game.currentPlayerIndex = false)
      (rest : QuietActions game.advanceToNextPlayer count final) : QuietActions game count final
  | act {game next final : PokerGame} {count : Nat} (playerId : Int) (action : Action)
      (amount : Int) (listed : game.isListed playerId ⟨action, amount⟩ = true)
      (accepted : game.processPlayerAction playerId action amount = (true, next))
      (low : next.currentBet ≤ game.currentBet)
      (rest : QuietActions next count final) : QuietActions game (count + 1) final

theorem PokerGame.process_complete (game : PokerGame) (playerId : Int) (action : Action)
    (amount : Int) (complete : game.bettingRoundComplete = true) :
    (game.processPlayerAction playerId action amount).2.bettingRoundComplete = true := by
  rcases game.processPlayerAction_cases playerId action amount with rejected |
    ⟨_, _, done, _, _, _, _, _, _, _, accepted⟩
  · rw [rejected]
    exact complete
  · rw [accepted]
    change (PokerGame.checkBettingRoundComplete _).bettingRoundComplete = true
    rw [PokerGame.checked_complete, PokerGame.advance_stays_complete (by exact complete), Bool.true_or]

theorem QuietActions.stays_complete {game final : PokerGame} {count : Nat}
    (quiet : QuietActions game count final) (complete : game.bettingRoundComplete = true) :
    final.bettingRoundComplete = true := by
  induction quiet with
  | none game => exact complete
  | skip idle rest ih => exact ih (PokerGame.advance_stays_complete complete)
  | @act game next _ _ playerId action amount listed accepted low rest ih =>
      have kept := game.process_complete playerId action amount complete
      rw [accepted] at kept
      exact ih kept

/-- The accepted action behind a step of a quiet sequence. -/
theorem PokerGame.accepted_turn {table : Table} {game next : PokerGame} {playerId : Int}
    {action : Action} {amount : Int} (seated : Seated table game)
    (accepted : game.processPlayerAction playerId action amount = (true, next)) :
    ∃ player done, game.Turn player ∧ player.id = playerId ∧
      game.performAction player player.id action amount = some done ∧
      next = game.afterAction done player.id action amount := by
  rcases game.processPlayerAction_cases playerId action amount with rejected |
    ⟨seat, player, done, here, id, turn, active, _, performed, _, result⟩
  · rw [rejected] at accepted
    cases accepted
  · have same : seat = game.currentPlayerIndex := by
      have := seated.id_eq here
      omega
    subst same
    rw [result, Prod.mk.injEq] at accepted
    exact ⟨player, done, ⟨here, active⟩, id, id ▸ performed, id ▸ accepted.2.symm⟩

/-- From a turn on a lap, quiet actions close the round or advance the turn by at least
one place each. -/
theorem QuietActions.closes {table : Table} {game final : PokerGame} {count base : Nat}
    (quiet : QuietActions game count final) (blind : 0 < table.bigBlind)
    (seated : Seated table game) (inPlay : InPlay game) (lap : Lap game base)
    (active : game.isActive game.currentPlayerIndex = true) :
    final.bettingRoundComplete = true ∨
      Clockwise.place game.players.length base game.currentPlayerIndex + count <
        game.players.length := by
  induction quiet with
  | none game => exact Or.inr (Clockwise.place_lt lap.inside _)
  | skip idle rest ih =>
      rw [idle] at active
      cases active
  | @act game next _ _ playerId action amount listed accepted low rest ih =>
      obtain ⟨player, done, turn, rfl, performed, rfl⟩ := PokerGame.accepted_turn seated accepted
      have funded := inPlay.funded player (List.mem_of_getElem? turn.here) turn.active
      have big : 0 < game.bigBlind := seated.blinds.2 ▸ blind
      obtain ⟨seat, complete, frame⟩ := game.afterAction_frame done player.id action amount
      rcases PokerGame.performAction_outcome funded
        (PokerGame.listed_fair seated turn big inPlay.bet listed) performed with quiet | raises
      · rcases lap.quiet seated inPlay turn performed quiet with closed | ⟨kept, ahead, _⟩
        · exact Or.inl (rest.stays_complete closed)
        · rcases PokerGame.afterAction_active seated turn inPlay.turn performed with closed | acts
          · exact Or.inl (rest.stays_complete closed)
          · have size := PokerGame.afterAction_length seated turn performed
            have further := ih (seated.afterAction turn performed)
              (inPlay.afterAction seated turn performed) kept acts
            rw [size] at further
            exact further.imp id fun bound => by omega
      · have higher := raises.higher
        rw [frame] at low
        change done.currentBet ≤ game.currentBet at low
        omega

/-- Enough quiet actions for every seat close an open round. -/
theorem QuietActions.complete_of_lap {table : Table} {game final : PokerGame} {count base : Nat}
    (quiet : QuietActions game count final) (blind : 0 < table.bigBlind)
    (seated : Seated table game) (inPlay : InPlay game) (lap : Lap game base)
    (enough : game.players.length ≤ count) : final.bettingRoundComplete = true := by
  have positive : 0 < game.players.length := Nat.lt_of_le_of_lt (Nat.zero_le _) lap.inside
  have settle : ∀ {count}, QuietActions game count final → game.players.length ≤ count →
      game.isActive game.currentPlayerIndex = true → final.bettingRoundComplete = true := by
    intro count quiet enough active
    exact (quiet.closes blind seated inPlay lap active).resolve_right (by omega)
  cases quiet with
  | none => omega
  | act playerId action amount listed accepted low rest =>
      obtain ⟨player, done, turn, _⟩ := PokerGame.accepted_turn seated accepted
      exact settle (.act playerId action amount listed accepted low rest) enough
        (PokerGame.isActive_iff.mpr ⟨player, turn.here, turn.active⟩)
  | skip idle rest =>
      rcases lap.skip inPlay.turn idle with closed | kept
      · exact rest.stays_complete closed
      · obtain ⟨seat, complete, frame⟩ := game.advance_frame
        rcases game.advance_active inPlay.turn with closed | acts
        · exact rest.stays_complete closed
        · have size : game.advanceToNextPlayer.players.length = game.players.length := by rw [frame]
          have further := rest.closes blind (by rw [frame]; exact seated.congr rfl rfl rfl)
            inPlay.advance kept acts
          exact further.resolve_right (by rw [size]; omega)

/-- Along every run of listed decisions in which no hand starts with the big blind below an
`ACTIVE` small blind, as many quiet actions as there are seats close an open round. -/
theorem betting_round_ends (table : Table) (events : List DriverEvent) (state : DriverState)
    (final : PokerGame) (blinds : 0 < table.smallBlind ∧ table.smallBlind ≤ table.bigBlind)
    (played : Runs.run driverStep table.start events = some state)
    (listed : Runs.meets driverStep listedStep table.start events = true)
    (level : Runs.meets driverStep bigBlindLevel table.start events = true)
    (stage : state.stage = .inHand) (running : state.game.bettingRoundComplete = false)
    (quiet : QuietActions state.game state.game.players.length final) :
    final.bettingRoundComplete = true := by
  have holds : Reached table state ∧ OnLap state :=
    Runs.run_invariant (fun state => Reached table state ∧ OnLap state)
      (fun before event after ⟨reached, onLap⟩ allowed taken =>
        have ⟨first, second⟩ := Bool.and_eq_true_iff.mp allowed
        ⟨reached.step taken, onLap_step blinds reached onLap first second taken⟩)
      ⟨table.reached_start, fun stage => nomatch stage⟩ (Runs.meets_and listed level) played
  obtain ⟨reached, onLap⟩ := holds
  obtain ⟨base, lap⟩ := onLap stage running
  exact quiet.complete_of_lap (by omega) reached.seated (reached.inPlay stage) lap (Nat.le_refl _)

/-- With five chips on the big blind and ten on the small blind, a call, a check and a
check leave the round open: the bets of the two `ACTIVE` players never meet. -/
theorem checks_leave_round_open :
    ∃ state final, Runs.run driverStep shortBigBlind.start [.newHand .unshuffled] = some state ∧
      state.stage = .inHand ∧ state.game.bettingRoundComplete = false ∧
      QuietActions state.game state.game.players.length final ∧
      final.bettingRoundComplete = false :=
  ⟨_, _, rfl, rfl, rfl,
    .act 0 .call 0 rfl rfl (by decide) (.act 1 .check 0 rfl rfl (by decide)
      (.act 0 .check 0 rfl rfl (by decide) (.none _))), rfl⟩

theorem betting_round_ends_heads_up :
    ∃ state final, Runs.run driverStep headsUp.start [.newHand .unshuffled] = some state ∧
      QuietActions state.game state.game.players.length final ∧
      final.bettingRoundComplete = true := by
  refine ⟨_, _, rfl,
    .act 1 .call 0 rfl rfl (by decide) (.act 0 .check 0 rfl rfl (by decide) (.none _)), ?_⟩
  exact betting_round_ends headsUp [.newHand .unshuffled] _ _ (by decide) rfl rfl rfl rfl rfl
    (.act 1 .call 0 rfl rfl (by decide) (.act 0 .check 0 rfl rfl (by decide) (.none _)))

end Holdem
