import Holdem.NobodySkipped
import Holdem.TurnOrder

set_option autoImplicit false

namespace Holdem

/-- An unraised round before the flop, seen from the big blind. While it is `ACTIVE` it has
posted the full blind, which is the current bet; while it has not acted, nobody else
from the turn on has matched it. -/
structure Unraised (game : PokerGame) (acted : List Nat) (big : Nat) : Prop where
  inside : big < game.players.length
  marked : ∀ (seat : Nat) player, game.players[seat]? = some player →
    (player.isBigBlind = true ↔ seat = big)
  raiser : game.lastRaiserIndex = some big
  full : ∀ player, game.players[big]? = some player → player.status = .active →
    player.currentBet = game.currentBet ∧ game.currentBet = game.bigBlind
  waiting : big ∉ acted → game.isActive big = true → ∀ (seat : Nat) player,
    game.players[seat]? = some player → player.status = .active → seat ≠ big →
    Clockwise.place game.players.length big game.currentPlayerIndex ≤
      Clockwise.place game.players.length big seat →
    player.currentBet < game.currentBet
  closed : game.bettingRoundComplete = true → 2 ≤ game.activePlayers.length →
    game.isActive big = true → big ∈ acted

theorem OpenedHand.unraised_round {game next : PokerGame} {shuffle : Shuffle} {button : Nat}
    (hand : OpenedHand game button (game.nextBlinds shuffle).1 (game.nextBlinds shuffle).2 next)
    (blinds : 0 < game.smallBlind ∧ game.smallBlind < game.bigBlind)
    (solvent : ∀ player ∈ game.players, 0 ≤ player.chips) :
    Unraised next [] (game.nextBlinds shuffle).2 := by
  have bigPositive : 0 < game.bigBlind := by omega
  obtain ⟨bigBefore, bigThere, _⟩ := hand.bigAlive
  have bigChips := solvent bigBefore (List.mem_of_getElem? bigThere)
  have bet := hand.currentBet_eq blinds.1 bigPositive solvent
  have posted : ∀ player, next.players[(game.nextBlinds shuffle).2]? = some player →
      player.status = .active → (game.blindPosts shuffle).2 = game.bigBlind := by
    intro player here active
    obtain ⟨before, cards, there, rfl⟩ := hand.player_of_seat here
    rw [bigThere] at there
    cases there
    have deep := PokerGame.openSeat_big_active bigChips active
    simp only [PokerGame.blindPosts, PokerGame.stackAt, bigThere, Option.map_some,
      Option.getD_some]
    omega
  refine ⟨?_, ?_, hand.lastRaiser, ?_, ?_, ?_⟩
  · rw [hand.length]
    exact (List.getElem?_eq_some_iff.mp bigThere).1
  · intro seat player here
    obtain ⟨before, cards, _, rfl⟩ := hand.player_of_seat here
    rw [(PokerGame.openSeat_marks before hand.apart).2.2.2, beq_iff_eq]
  · intro player here active
    have own := (hand.bet_of_seat blinds.1 bigPositive solvent here).1
    rw [if_pos rfl] at own
    rw [own, bet, hand.blinds.2]
    exact ⟨rfl, posted player here active⟩
  · intro _ bigActs seat player here active notBig _
    obtain ⟨bigPlayer, bigHere, bigActive⟩ := PokerGame.isActive_iff.mp bigActs
    have own := (hand.bet_of_seat blinds.1 bigPositive solvent here).1
    rw [if_neg notBig] at own
    rw [own, bet, posted bigPlayer bigHere bigActive]
    split
    · simp only [PokerGame.blindPosts]
      omega
    · exact bigPositive
  · intro complete
    rw [hand.running] at complete
    cases complete

section Actions

variable {table : Table} {game : PokerGame} {acted : List Nat} {big : Nat} {player : Player}
  {action : Action} {amount : Int} {done : Performed}

theorem PokerGame.quiet_of_unraised (funded : 0 < player.chips)
    (performed : game.performAction player player.id action amount = some done)
    (unraised : done.hasBetOrRaiseThisRound = false) : done.Quiet game player := by
  have fair : action = .raise → 0 < amount := by
    rintro rfl
    simp only [PokerGame.performAction] at performed
    split at performed
    · cases performed
    · cases performed
      cases unraised
  rcases PokerGame.performAction_outcome funded fair performed with quiet | raises
  · exact quiet
  · rw [raises.flag] at unraised
    cases unraised

/-- As long as a seat other than the actor's is `ACTIVE`, the turn moves towards it. -/
theorem PokerGame.afterAction_forward (seated : Seated table game) (inPlay : InPlay game)
    (turn : game.Turn player)
    (performed : game.performAction player player.id action amount = some done)
    (inside : big < game.players.length)
    (active : (game.afterAction done player.id action amount).isActive big = true)
    (apart : game.currentPlayerIndex ≠ big) :
    Clockwise.place game.players.length big game.currentPlayerIndex <
      Clockwise.place game.players.length big
        (game.afterAction done player.id action amount).currentPlayerIndex := by
  have size := PokerGame.commit_length seated turn performed
  obtain ⟨seat, complete, frame⟩ := game.afterAction_frame done player.id action amount
  have commits : (game.commitAction done player.id action amount).isActive big = true := by
    rw [frame] at active
    exact active
  rcases game.afterAction_cases done player.id action amount (size ▸ inPlay.turn) with
    ⟨nobody, _⟩ | ⟨next, found, moved⟩
  · rw [nobody big] at commits
    cases commits
  · rw [size] at found
    have index : (game.afterAction done player.id action amount).currentPlayerIndex = next := by
      rw [moved]
      unfold PokerGame.checkBettingRoundComplete
      split <;> rfl
    rw [index]
    exact Clockwise.search_before inside inPlay.turn found commits apart

/-- An action that completes the unraised round over two or more `ACTIVE` players, the big
blind among them, is the big blind's own or comes after it. -/
theorem Unraised.big_acted (round : Unraised game acted big) (seated : Seated table game)
    (inPlay : InPlay game) (turn : game.Turn player)
    (performed : game.performAction player player.id action amount = some done)
    (quiet : done.Quiet game player) (flag : game.hasBetOrRaiseThisRound = false)
    (running : game.bettingRoundComplete = false)
    (finished : (game.afterAction done player.id action amount).bettingRoundComplete = true)
    (two : 2 ≤ (game.afterAction done player.id action amount).activePlayers.length)
    (bigActs : (game.afterAction done player.id action amount).isActive big = true) :
    big ∈ game.currentPlayerIndex :: acted := by
  obtain ⟨inside, _, raiser, _, waiting, _⟩ := round
  have size := PokerGame.commit_length seated turn performed
  obtain ⟨seat, complete, frame⟩ := game.afterAction_frame done player.id action amount
  by_contra fresh
  rw [List.mem_cons, not_or] at fresh
  have bigCommits : (game.commitAction done player.id action amount).isActive big = true := by
    rw [frame] at bigActs
    exact bigActs
  obtain ⟨next, found, matched, finish⟩ :=
    PokerGame.closed_round seated turn inPlay.turn performed running finished two
  have early := PokerGame.finish_after_raiser quiet raiser flag bigCommits (size ▸ inside) finish
  have forward := Clockwise.search_before inside inPlay.turn found bigCommits (Ne.symm fresh.1)
  have nextActs := ((Clockwise.search_eq_some_iff inPlay.turn (Nat.le_refl _)).mp found).2.1
  have notBig : next ≠ big := by
    rintro rfl
    rw [size, Clockwise.place_self inside] at early
    omega
  -- the next player has not acted either, so the bets are not level
  obtain ⟨other, here, there, active⟩ := PokerGame.active_elsewhere seated turn performed nextActs
    (by rintro rfl; omega)
  have owing := waiting fresh.2 (PokerGame.afterAction_was_active seated turn performed bigActs)
    next other there active notBig (Nat.le_of_lt forward)
  have level : other.currentBet = done.currentBet := matched next other here active
  rw [level, quiet.bet] at owing
  exact absurd owing (Int.lt_irrefl _)

theorem Unraised.afterAction (round : Unraised game acted big) (seated : Seated table game)
    (inPlay : InPlay game) (turn : game.Turn player)
    (performed : game.performAction player player.id action amount = some done)
    (quiet : done.Quiet game player) (flag : game.hasBetOrRaiseThisRound = false)
    (running : game.bettingRoundComplete = false) :
    Unraised (game.afterAction done player.id action amount)
      (game.currentPlayerIndex :: acted) big := by
  have bigActed := round.big_acted seated inPlay turn performed quiet flag running
  obtain ⟨inside, marked, raiser, full, waiting, _⟩ := round
  obtain ⟨seat, complete, frame⟩ := game.afterAction_frame done player.id action amount
  have length := PokerGame.afterAction_length seated turn performed
  obtain ⟨bet, raiserSame, _⟩ := PokerGame.afterAction_of_quiet quiet action amount
  have blind : (game.afterAction done player.id action amount).bigBlind = game.bigBlind := by
    rw [frame]
    rfl
  refine ⟨length ▸ inside, ?_, ?_, ?_, ?_, bigActed⟩
  · intro at_ other here
    rcases PokerGame.afterAction_seat seated turn performed here with ⟨rfl, rfl⟩ | ⟨_, there⟩
    · rw [(PokerGame.performAction_keeps performed).2.2.2.2]
      exact marked _ player turn.here
    · exact marked at_ other there
  · exact raiserSame.trans raiser
  · intro other here active
    rw [bet, blind]
    rcases PokerGame.afterAction_seat seated turn performed here with ⟨rfl, rfl⟩ | ⟨_, there⟩
    · obtain ⟨own, posted⟩ := full player turn.here turn.active
      have low := quiet.low
      have high := quiet.settled active
      exact ⟨by omega, posted⟩
    · exact full other there active
  · intro fresh bigActs at_ other here active notBig ahead
    rw [List.mem_cons, not_or] at fresh
    have forward := PokerGame.afterAction_forward seated inPlay turn performed inside bigActs
      (Ne.symm fresh.1)
    rw [length] at ahead
    rw [bet]
    rcases PokerGame.afterAction_seat seated turn performed here with ⟨rfl, _⟩ | ⟨_, there⟩
    · omega
    · exact waiting fresh.2 (PokerGame.afterAction_was_active seated turn performed bigActs)
        at_ other there active notBig (by omega)

theorem Unraised.skip (round : Unraised game acted big) (inPlay : InPlay game)
    (idle : game.isActive game.currentPlayerIndex = false)
    (running : game.bettingRoundComplete = false) :
    Unraised game.advanceToNextPlayer acted big := by
  obtain ⟨inside, marked, raiser, full, waiting, _⟩ := round
  rcases PokerGame.advanceToNextPlayer_turn inPlay.turn with ⟨next, first, moved⟩ | nobody
  · have found := (Clockwise.search_iff_isFirst inPlay.turn).mpr first
    rw [moved]
    refine ⟨inside, marked, raiser, full, ?_, ?_⟩
    · intro fresh bigActs seat other here active notBig ahead
      have bigIdle : game.currentPlayerIndex ≠ big := by
        rintro rfl
        rw [show game.isActive _ = true from bigActs] at idle
        cases idle
      have forward := Clockwise.search_before inside inPlay.turn found bigActs bigIdle
      exact waiting fresh bigActs seat other here active notBig
        (Nat.le_trans (Nat.le_of_lt forward) ahead)
    · intro finished
      rw [show game.bettingRoundComplete = true from finished] at running
      cases running
  · have stuck : ∀ seat, game.isActive seat = false := by
      have finished : game.advanceToNextPlayer.bettingRoundComplete = true := by rw [nobody]
      intro seat
      have inactive := PokerGame.nobody_of_advance_closed inPlay.turn running finished seat
      rw [nobody] at inactive
      exact inactive
    rw [nobody]
    refine ⟨inside, marked, raiser, full, waiting, ?_⟩
    intro _ _ bigActs
    have acts : game.isActive big = true := bigActs
    rw [stuck big] at acts
    cases acts

end Actions

/-- The record of an unraised round before the flop is right. -/
def UnraisedRecord (tracked : Tracked) : Prop :=
  tracked.state.stage = .inHand → tracked.state.game.currentPhase = .preflop →
    tracked.state.game.hasBetOrRaiseThisRound = false →
    ∃ big, Unraised tracked.state.game tracked.acted big

theorem unraisedRecord_step {table : Table} {before after : Tracked} {event : DriverEvent}
    (blinds : 0 < table.smallBlind ∧ table.smallBlind < table.bigBlind)
    (reached : Reached table before.state) (record : UnraisedRecord before)
    (taken : trackedStep before event = some after) : UnraisedRecord after := by
  intro stays preflop unraised
  obtain ⟨next, stepped, rfl⟩ := Option.map_eq_some_iff.mp taken
  dsimp only at stays preflop unraised ⊢
  cases event with
  | newHand shuffle =>
      obtain ⟨_, _, button, hand⟩ := reached.opened stepped
      have posted : 0 < before.state.game.smallBlind ∧
          before.state.game.smallBlind < before.state.game.bigBlind := by
        rw [reached.seated.blinds.1, reached.seated.blinds.2]
        exact blinds
      exact ⟨_, OpenedHand.unraised_round hand posted reached.solvent.chips⟩
  | skip =>
      obtain ⟨stage, _, running, idle, rfl⟩ := driverStep_skip stepped
      obtain ⟨seat, complete, frame⟩ := before.state.game.advance_frame
      dsimp only at preflop unraised
      rw [frame] at preflop unraised
      obtain ⟨big, round⟩ := record stage preflop unraised
      exact ⟨big, round.skip (reached.inPlay stage) idle running⟩
  | decide decision =>
      obtain ⟨stage, _, running, player, action, amount, done, turn, performed, rfl, _⟩ :=
        reached.decided stepped
      have inPlay := reached.inPlay stage
      obtain ⟨seat, complete, frame⟩ :=
        before.state.game.afterAction_frame done player.id action amount
      dsimp only at preflop unraised ⊢
      have phase : before.state.game.currentPhase = .preflop := by
        rw [frame] at preflop
        exact preflop
      have quiet : done.Quiet before.state.game player := by
        rw [frame] at unraised
        exact PokerGame.quiet_of_unraised
          (inPlay.funded player (List.mem_of_getElem? turn.here) turn.active) performed unraised
      have flag : before.state.game.hasBetOrRaiseThisRound = false := by
        rw [frame] at unraised
        exact quiet.flag.symm.trans unraised
      have acted : recordActor before.state.game
          (before.state.game.afterAction done player.id action amount) before.acted =
          before.state.game.currentPlayerIndex :: before.acted := by
        unfold recordActor
        rw [frame]
        change (if _ < done.currentBet then _ else _) = _
        rw [quiet.bet, if_neg (Int.lt_irrefl _)]
      obtain ⟨big, round⟩ := record stage phase flag
      rw [acted]
      exact ⟨big, round.afterAction reached.seated inPlay turn performed quiet flag running⟩
  | nextPhase =>
      obtain ⟨_, _, shown | ⟨phase, count, describe, later, _, _, _, opened⟩⟩ :=
        reached.phaseMoved stepped stays
      · rw [shown] at preflop
        cases preflop
      · rw [opened, (PokerGame.newRound_deck _).2] at preflop
        exact absurd preflop later
  | showdown =>
      obtain ⟨_, _, _, _, ended⟩ := driverStep_showdown stepped
      rw [ended] at stays
      cases stays

theorem Table.unraisedRecord (table : Table)
    (blinds : 0 < table.smallBlind ∧ table.smallBlind < table.bigBlind)
    {events : List DriverEvent} {tracked : Tracked}
    (played : Runs.run trackedStep table.startTracked events = some tracked) :
    Reached table tracked.state ∧ UnraisedRecord tracked := by
  refine Runs.run_invariant_always
    (fun tracked => Reached table tracked.state ∧ UnraisedRecord tracked) ?_
    ⟨table.reached_start, fun stage => by cases stage⟩ played
  rintro before event after ⟨reached, record⟩ taken
  obtain ⟨next, stepped, shape⟩ := Option.map_eq_some_iff.mp taken
  exact ⟨shape ▸ reached.step stepped, unraisedRecord_step blinds reached record taken⟩

/-- The listing of an unraised big blind whose turn it is. -/
theorem Unraised.offers {table : Table} {game : PokerGame} {acted : List Nat} {player : Player}
    (round : Unraised game acted game.currentPlayerIndex) (seated : Seated table game)
    (inPlay : InPlay game) (turn : game.Turn player) (phase : game.currentPhase = .preflop)
    (flag : game.hasBetOrRaiseThisRound = false) (positive : 0 < game.bigBlind) :
    .check ∈ game.getAvailableActions player.id ∧
      (game.currentBet + game.bigBlind ≤ player.chips →
        .raise (game.currentBet + game.bigBlind) ∈ game.getAvailableActions player.id) := by
  obtain ⟨own, posted⟩ := round.full player turn.here turn.active
  have nothing : game.toCall player = 0 := by
    unfold PokerGame.toCall
    omega
  have seat : game.bigBlindIndex = some game.currentPlayerIndex := by
    unfold PokerGame.bigBlindIndex
    rw [List.findIdx?_eq_some_iff_getElem]
    refine ⟨round.inside, ?_, ?_⟩
    · exact (round.marked _ _ (List.getElem?_eq_getElem round.inside)).mpr rfl
    · intro other before
      have otherIn := Nat.lt_trans before round.inside
      rw [round.marked other _ (List.getElem?_eq_getElem otherIn)]
      omega
  have id := seated.id_eq turn.here
  have option : game.mayRaise player player.id = true := by
    simp [PokerGame.mayRaise, PokerGame.isBigBlindOption, phase, flag, nothing, posted, seat, id]
  have funded := inPlay.funded player (List.mem_of_getElem? turn.here) turn.active
  constructor
  · exact (PokerGame.mem_available seated turn).mpr (Or.inr (Or.inl ⟨rfl, nothing⟩))
  · intro affords
    have least : game.minRaiseTotal = game.currentBet + game.bigBlind := by
      unfold PokerGame.minRaiseTotal
      rw [if_neg (by omega)]
    refine (PokerGame.mem_available seated turn).mpr (Or.inr (Or.inr (Or.inr (Or.inl ?_))))
    rw [least, nothing]
    exact ⟨rfl, option, affords, funded⟩

/-- The option of the big blind. In a preflop round without a bet or raise, a big blind that
is still `ACTIVE` has acted when the round is complete over two or more `ACTIVE` players;
and whenever the turn is with it, it may check, and raise if it has the chips. -/
theorem big_blind_has_option (table : Table) (events : List DriverEvent) (tracked : Tracked)
    (seat : Nat) (player : Player)
    (blinds : 0 < table.smallBlind ∧ table.smallBlind < table.bigBlind)
    (played : Runs.run trackedStep table.startTracked events = some tracked)
    (stage : tracked.state.stage = .inHand)
    (preflop : tracked.state.game.currentPhase = .preflop)
    (unraised : tracked.state.game.hasBetOrRaiseThisRound = false)
    (here : tracked.state.game.players[seat]? = some player)
    (bigBlind : player.isBigBlind = true) (active : player.status = .active) :
    (tracked.state.game.bettingRoundComplete = true →
      2 ≤ tracked.state.game.activePlayers.length → seat ∈ tracked.acted) ∧
    (tracked.state.game.currentPlayerIndex = seat →
      .check ∈ tracked.state.game.getAvailableActions player.id ∧
      (tracked.state.game.currentBet + tracked.state.game.bigBlind ≤ player.chips →
        .raise (tracked.state.game.currentBet + tracked.state.game.bigBlind) ∈
          tracked.state.game.getAvailableActions player.id)) := by
  obtain ⟨reached, record⟩ := table.unraisedRecord blinds played
  obtain ⟨big, round⟩ := record stage preflop unraised
  obtain rfl : seat = big := (round.marked seat player here).mp bigBlind
  constructor
  · intro complete two
    exact round.closed complete two (PokerGame.isActive_iff.mpr ⟨player, here, active⟩)
  · rintro rfl
    have positive : 0 < tracked.state.game.bigBlind := by
      rw [reached.seated.blinds.2]
      omega
    exact round.offers reached.seated (reached.inPlay stage) ⟨here, active⟩ preflop unraised
      positive

/-- Three players limp; the round is over only after the big blind has checked. -/
theorem big_blind_has_option_limped :
    ∃ tracked, Runs.run trackedStep threeHanded.startTracked
        [.newHand .unshuffled, .decide ⟨.call, 0⟩, .decide ⟨.call, 0⟩, .decide ⟨.check, 0⟩] =
          some tracked ∧
      tracked.state.game.bettingRoundComplete = true ∧ 2 ∈ tracked.acted := by
  have reached : ∃ tracked player, Runs.run trackedStep threeHanded.startTracked
        [.newHand .unshuffled, .decide ⟨.call, 0⟩, .decide ⟨.call, 0⟩, .decide ⟨.check, 0⟩] =
          some tracked ∧
      tracked.state.stage = .inHand ∧ tracked.state.game.currentPhase = .preflop ∧
      tracked.state.game.hasBetOrRaiseThisRound = false ∧
      tracked.state.game.players[2]? = some player ∧ player.isBigBlind = true ∧
      player.status = .active ∧ tracked.state.game.bettingRoundComplete = true ∧
      2 ≤ tracked.state.game.activePlayers.length :=
    ⟨_, _, rfl, rfl, rfl, rfl, rfl, rfl, rfl, rfl, by decide⟩
  obtain ⟨tracked, player, played, stage, preflop, unraised, here, marked, active, complete,
    two⟩ := reached
  obtain ⟨acts, _⟩ := big_blind_has_option threeHanded _ tracked 2 player (by decide) played
    stage preflop unraised here marked active
  exact ⟨tracked, played, complete, acts complete two⟩

end Holdem
