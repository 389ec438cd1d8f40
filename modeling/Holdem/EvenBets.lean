import Holdem.RoundFacts

set_option autoImplicit false

namespace Holdem

def PokerGame.ActiveAgree (game : PokerGame) (value : Player → Int) : Prop :=
  ∀ first ∈ game.players, ∀ second ∈ game.players, first.status = .active →
    second.status = .active → value first = value second

namespace PokerGame

variable {game next : PokerGame} {value : Player → Int}

theorem agree_of_nobody (nobody : ∀ seat, game.isActive seat = false) :
    game.ActiveAgree value := by
  intro first member _ _ active _
  obtain ⟨seat, here⟩ := List.mem_iff_getElem?.mp member
  have acts := isActive_iff.mpr ⟨first, here, active⟩
  rw [nobody seat] at acts
  cases acts

/-- A round that `_check_betting_round_complete` closes has equal `ACTIVE` bets. -/
theorem agree_of_roundIsOver (ended : game.roundIsOver = true) :
    game.ActiveAgree Player.currentBet := by
  intro first firstIn second secondIn firstActs secondActs
  by_cases two : 2 ≤ game.activePlayers.length
  · have matched := allMatched_iff.mp (matched_of_roundIsOver ended two).1
    simp only [List.all_eq_true, mem_activePlayers, beq_iff_eq] at matched
    rw [matched first ⟨firstIn, firstActs⟩, matched second ⟨secondIn, secondActs⟩]
  · have firstListed := mem_activePlayers.mpr ⟨firstIn, firstActs⟩
    have secondListed := mem_activePlayers.mpr ⟨secondIn, secondActs⟩
    rcases listed : game.activePlayers with _ | ⟨single, _ | ⟨other, rest⟩⟩
    · rw [listed] at firstListed
      cases firstListed
    · rw [listed, List.mem_singleton] at firstListed secondListed
      rw [firstListed, secondListed]
    · rw [listed] at two
      simp at two

theorem ActiveAgree.of_map {older : Player → Int} (agree : game.ActiveAgree older)
    (same : next.players.map (fun player => (player.status, value player)) =
      game.players.map fun player => (player.status, older player)) :
    next.ActiveAgree value := by
  have before : ∀ player ∈ next.players, ∃ old ∈ game.players,
      old.status = player.status ∧ older old = value player := by
    intro player member
    have image := List.mem_map_of_mem (f := fun player : Player => (player.status, value player))
      member
    rw [same] at image
    obtain ⟨old, oldIn, equal⟩ := List.mem_map.mp image
    rw [Prod.mk.injEq] at equal
    exact ⟨old, oldIn, equal.1, equal.2⟩
  intro first firstIn second secondIn firstActs secondActs
  obtain ⟨one, oneIn, oneStatus, oneValue⟩ := before first firstIn
  obtain ⟨two, twoIn, twoStatus, twoValue⟩ := before second secondIn
  rw [← oneValue, ← twoValue]
  apply agree one oneIn two twoIn
  · rw [oneStatus, firstActs]
  · rw [twoStatus, secondActs]

end PokerGame

def Player.earlierStreets (player : Player) : Int :=
  player.totalBetThisHand - player.currentBet

/-- The invariant behind equal contributions: `ACTIVE` players paid the same on the streets
before, and the same on this street once it is complete. -/
structure EvenBets (game : PokerGame) : Prop where
  earlier : game.ActiveAgree Player.earlierStreets
  street : game.bettingRoundComplete = true → game.ActiveAgree Player.currentBet
  shown : game.currentPhase = .showdown → game.bettingRoundComplete = true

namespace EvenBets

variable {table : Table} {game : PokerGame}

theorem totals (even : EvenBets game) (complete : game.bettingRoundComplete = true) :
    game.ActiveAgree Player.totalBetThisHand := by
  intro first firstIn second secondIn firstActs secondActs
  have earlier := even.earlier first firstIn second secondIn firstActs secondActs
  have street := even.street complete first firstIn second secondIn firstActs secondActs
  unfold Player.earlierStreets at earlier
  omega

theorem opened {next : PokerGame} {button small big : Nat}
    (hand : OpenedHand game button small big next)
    (solvent : ∀ player ∈ game.players, 0 ≤ player.chips) : EvenBets next := by
  have fresh : ∀ player ∈ next.players, player.earlierStreets = 0 := by
    intro player member
    obtain ⟨seat, there⟩ := List.mem_iff_getElem?.mp member
    obtain ⟨before, cards, here, rfl⟩ := hand.player_of_seat there
    have accounts := game.openSeat_accounts button small big seat
      (solvent before (List.mem_of_getElem? here))
    have equal := accounts.2.2.2.2
    unfold Player.earlierStreets
    dsimp only at equal ⊢
    omega
  refine ⟨?_, ?_, ?_⟩
  · intro first firstIn second secondIn _ _
    rw [fresh first firstIn, fresh second secondIn]
  · intro complete
    rw [hand.running] at complete
    cases complete
  · intro shown
    rw [hand.phase] at shown
    cases shown

theorem advance (even : EvenBets game)
    (inside : game.currentPlayerIndex < game.players.length) :
    EvenBets game.advanceToNextPlayer := by
  unfold PokerGame.advanceToNextPlayer
  dsimp only
  split
  · exact ⟨even.earlier, even.street, even.shown⟩
  · rename_i missing
    have nobody := PokerGame.nobody_of_search inside missing
    exact ⟨even.earlier, fun _ => PokerGame.agree_of_nobody nobody, fun _ => rfl⟩

theorem afterAction (even : EvenBets game) (seated : Seated table game) (inPlay : InPlay game)
    {player : Player} (turn : game.Turn player) {action : Action} {amount : Int}
    {done : Performed} (running : game.bettingRoundComplete = false)
    (performed : game.performAction player player.id action amount = some done) :
    EvenBets (game.afterAction done player.id action amount) := by
  have written := PokerGame.commitAction_players seated turn performed
  have funded := inPlay.funded player (List.mem_of_getElem? turn.here) turn.active
  have pays := PokerGame.performAction_pays (Int.le_of_lt funded) performed
  have size := PokerGame.commit_length seated turn performed
  have kept : done.player.earlierStreets = player.earlierStreets := by
    unfold Player.earlierStreets
    rw [pays.bet, pays.total]
    omega
  -- whoever is ACTIVE now stood for the same earlier bets as an ACTIVE player before
  have before : ∀ other ∈ (game.commitAction done player.id action amount).players,
      other.status = .active → ∃ old ∈ game.players, old.status = .active ∧
        old.earlierStreets = other.earlierStreets := by
    intro other member active
    rw [written] at member
    rcases List.mem_or_eq_of_mem_set member with old | rfl
    · exact ⟨other, old, active, rfl⟩
    · exact ⟨player, List.mem_of_getElem? turn.here, turn.active, kept.symm⟩
  have earlier : (game.commitAction done player.id action amount).ActiveAgree
      Player.earlierStreets := by
    intro first firstIn second secondIn firstActs secondActs
    obtain ⟨one, oneIn, oneActs, oneSame⟩ := before first firstIn firstActs
    obtain ⟨two, twoIn, twoActs, twoSame⟩ := before second secondIn secondActs
    rw [← oneSame, ← twoSame]
    exact even.earlier one oneIn two twoIn oneActs twoActs
  have street : (game.afterAction done player.id action amount).bettingRoundComplete = true →
      (game.afterAction done player.id action amount).ActiveAgree Player.currentBet := by
    rcases game.afterAction_cases done player.id action amount (size ▸ inPlay.turn) with
      ⟨nobody, _⟩ | ⟨next, _, moved⟩
    · intro _
      obtain ⟨seat, complete, frame⟩ := game.afterAction_frame done player.id action amount
      rw [frame]
      exact PokerGame.agree_of_nobody nobody
    · rw [moved]
      intro complete
      have ended : (game.turnedTo done player.id action amount next).roundIsOver = true := by
        rw [PokerGame.checked_complete] at complete
        change (game.bettingRoundComplete || _) = true at complete
        rwa [running, Bool.false_or] at complete
      unfold PokerGame.checkBettingRoundComplete
      rw [if_pos ended]
      exact PokerGame.agree_of_roundIsOver ended
  have shown : (game.afterAction done player.id action amount).currentPhase ≠ .showdown := by
    intro phase
    obtain ⟨seat, complete, frame⟩ := game.afterAction_frame done player.id action amount
    rw [frame] at phase
    have complete := even.shown phase
    rw [running] at complete
    cases complete
  refine ⟨?_, street, fun phase => absurd phase shown⟩
  obtain ⟨seat, complete, frame⟩ := game.afterAction_frame done player.id action amount
  rw [frame]
  exact earlier

theorem nextPhase (even : EvenBets game) {moved : Bool} {next : PokerGame}
    (served : game.currentPhase.cardsNeeded ≤ game.deck.length)
    (returned : game.advanceToNextPhase = .ok (moved, next)) : EvenBets next := by
  rcases PokerGame.advanceToNextPhase_cases served with ⟨refused, _⟩ | ⟨complete, _, reveal⟩ |
    ⟨complete, _, phase, count, describe, _, _, notShown, _, _, opened⟩
  · rw [refused] at returned
    cases returned
    exact even
  · rw [reveal] at returned
    cases returned
    exact ⟨even.earlier, even.street, fun _ => complete⟩
  · rw [opened] at returned
    cases returned
    obtain ⟨turn, closed, frame, nobody, _⟩ :=
      (game.dealtStreet count phase describe).startNewBettingRound_spec
    rw [frame]
    refine ⟨?_, ?_, fun phase => absurd phase notShown⟩
    · apply (even.totals complete).of_map
      simp only [List.map_map]
      apply List.map_congr_left
      intro player _
      simp [Player.earlierStreets, Player.resetForNewBettingRound]
    · intro closed
      have silent := nobody.mp closed
      apply PokerGame.agree_of_nobody
      intro seat
      rw [← silent seat]
      simp only [PokerGame.isActive, List.getElem?_map, Option.any_map]
      rfl

theorem showdown (even : EvenBets game) {next : PokerGame} {result : ShowdownResult}
    (returned : game.conductShowdown = .ok (next, result)) : EvenBets next := by
  obtain ⟨_, _, _, complete, _⟩ := PokerGame.conductShowdown_seats returned
  obtain ⟨_, phase, _⟩ := PokerGame.conductShowdown_cards returned
  refine ⟨?_, ?_, ?_⟩
  · exact even.earlier.of_map (PokerGame.conductShowdown_map (fun _ _ => rfl) returned)
  · intro closed
    rw [complete] at closed
    exact (even.street closed).of_map (PokerGame.conductShowdown_map (fun _ _ => rfl) returned)
  · intro shown
    rw [complete]
    exact even.shown (phase ▸ shown)

theorem initial (table : Table) : EvenBets table.game := by
  have fresh : ∀ player ∈ table.game.players, player.earlierStreets = 0 := by
    intro player member
    simp only [Table.game, List.mem_mapIdx] at member
    obtain ⟨seat, inside, rfl⟩ := member
    rfl
  refine ⟨?_, ?_, ?_⟩
  · intro first firstIn second secondIn _ _
    rw [fresh first firstIn, fresh second secondIn]
  · intro complete
    cases complete
  · intro shown
    cases shown

theorem step {state next : DriverState} {event : DriverEvent} (reached : Reached table state)
    (even : EvenBets state.game) (taken : driverStep state event = some next) :
    EvenBets next.game := by
  cases event with
  | newHand shuffle =>
      obtain ⟨_, _, button, hand⟩ := reached.opened taken
      exact opened hand reached.solvent.chips
  | skip =>
      obtain ⟨stage, _, _, _, rfl⟩ := driverStep_skip taken
      exact even.advance (reached.inPlay stage).turn
  | decide decision =>
      obtain ⟨stage, _, running, player, action, amount, done, turn, performed, rfl, _⟩ :=
        reached.decided taken
      exact even.afterAction reached.seated (reached.inPlay stage) turn running performed
  | nextPhase =>
      obtain ⟨_, _, _, moved, returned, _⟩ := driverStep_nextPhase taken
      exact even.nextPhase reached.solvent.served returned
  | showdown =>
      obtain ⟨_, _, result, returned, _⟩ := driverStep_showdown taken
      exact even.showdown returned

end EvenBets

/-- In every state of every driver run in which the betting round is complete, any two
`ACTIVE` players have equal bets on the street and over the hand; and the round is complete
whenever a street changes and at the showdown. -/
theorem active_players_paid_alike (table : Table) (events : List DriverEvent)
    (state : DriverState) (played : Runs.run driverStep table.start events = some state) :
    (state.game.bettingRoundComplete = true →
        ∀ first ∈ state.game.players, ∀ second ∈ state.game.players,
          first.status = .active → second.status = .active →
          first.currentBet = second.currentBet ∧
            first.totalBetThisHand = second.totalBetThisHand) ∧
      (∀ next, driverStep state .nextPhase = some next →
        state.game.bettingRoundComplete = true) ∧
      (state.game.currentPhase = .showdown → state.game.bettingRoundComplete = true) := by
  have kept : Reached table state ∧ EvenBets state.game :=
    Runs.run_invariant_always (fun state => Reached table state ∧ EvenBets state.game)
      (fun _ _ _ holds taken => ⟨holds.1.step taken, EvenBets.step holds.1 holds.2 taken⟩)
      ⟨table.reached_start, EvenBets.initial table⟩ played
  obtain ⟨_, even⟩ := kept
  refine ⟨?_, ?_, even.shown⟩
  · intro complete first firstIn second secondIn firstActs secondActs
    exact ⟨even.street complete first firstIn second secondIn firstActs secondActs,
      even.totals complete first firstIn second secondIn firstActs secondActs⟩
  · intro next taken
    exact (driverStep_nextPhase taken).2.2.1

def unevenStacks : Table where
  smallBlind := 10
  bigBlind := 20
  chips := [100, 35, 100]
  button := 2
  seats_ge := by decide
  seats_le := by decide
  chips_pos := by decide
  button_lt := by decide

/-- A short all-in below the bet, called and called again. -/
theorem active_players_paid_alike_short_shove :
    ∃ state, Runs.run driverStep unevenStacks.start
        [.newHand .unshuffled, .decide ⟨.raise, 30⟩, .decide ⟨.allIn, 0⟩, .decide ⟨.call, 0⟩] =
          some state ∧
      state.game.bettingRoundComplete = true ∧
      ∀ first ∈ state.game.players, ∀ second ∈ state.game.players,
        first.status = .active → second.status = .active →
        first.currentBet = second.currentBet ∧
          first.totalBetThisHand = second.totalBetThisHand := by
  have reached : ∃ state, Runs.run driverStep unevenStacks.start
      [.newHand .unshuffled, .decide ⟨.raise, 30⟩, .decide ⟨.allIn, 0⟩, .decide ⟨.call, 0⟩] =
        some state ∧ state.game.bettingRoundComplete = true := ⟨_, rfl, rfl⟩
  obtain ⟨state, played, complete⟩ := reached
  exact ⟨state, played, complete, (active_players_paid_alike unevenStacks _ state played).1 complete⟩

end Holdem
