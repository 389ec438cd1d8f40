import Holdem.Legality
import Holdem.View

set_option autoImplicit false

namespace Holdem

/-- An action that leaves the current bet where it is. -/
structure Performed.Quiet (done : Performed) (game : PokerGame) (player : Player) : Prop where
  bet : done.currentBet = game.currentBet
  raiser : done.lastRaiserIndex = game.lastRaiserIndex
  flag : done.hasBetOrRaiseThisRound = game.hasBetOrRaiseThisRound
  low : done.player.currentBet ≤ max game.currentBet player.currentBet
  settled : done.player.status = .active → game.currentBet ≤ done.player.currentBet

/-- An action that lifts the current bet to the actor's own bet. -/
structure Performed.Raises (done : Performed) (game : PokerGame) (player : Player) : Prop where
  bet : done.currentBet = done.player.currentBet
  higher : game.currentBet < done.currentBet
  raiser : done.lastRaiserIndex = some player.id.toNat
  flag : done.hasBetOrRaiseThisRound = true

namespace PokerGame

/-- With positive raise amounts every accepted action is quiet or raises. -/
theorem performAction_outcome {game : PokerGame} {player : Player} {action : Action}
    {amount : Int} {done : Performed} (funded : 0 < player.chips)
    (fair : action = .raise → 0 < amount)
    (performed : game.performAction player player.id action amount = some done) :
    done.Quiet game player ∨ done.Raises game player := by
  have bounded : ∀ stake, (player.bet stake).2.currentBet =
      player.currentBet + max 0 (min stake player.chips) := by
    intro stake
    obtain ⟨paid, _, bet, _⟩ := player.bet_spec stake (Int.le_of_lt funded)
    rw [bet, paid]
  cases action <;> simp only [performAction] at performed
  case fold =>
    cases performed
    refine Or.inl ⟨rfl, rfl, rfl, Int.le_max_right _ _, ?_⟩
    intro active
    cases active
  case check =>
    split at performed
    · cases performed
    · rename_i level
      cases performed
      exact Or.inl ⟨rfl, rfl, rfl, Int.le_max_right _ _, fun _ => by dsimp only; omega⟩
  case call =>
    split at performed
    · rename_i nothing
      cases performed
      exact Or.inl ⟨rfl, rfl, rfl, Int.le_max_right _ _, fun _ => by dsimp only; omega⟩
    · split at performed
      · cases performed
      · rename_i owes affords
        cases performed
        have level := bounded (game.currentBet - player.currentBet)
        exact Or.inl ⟨rfl, rfl, rfl, by dsimp only; omega, fun _ => by dsimp only; omega⟩
  case raise =>
    split at performed
    · cases performed
    · rename_i affords
      cases performed
      have level := bounded (game.currentBet - player.currentBet + amount)
      have positive := fair rfl
      exact Or.inr ⟨rfl, by dsimp only; omega, rfl, rfl⟩
  case allIn =>
    split at performed
    · cases performed
    · split at performed
      · rename_i higher
        cases performed
        exact Or.inr ⟨rfl, higher, rfl, rfl⟩
      · rename_i short
        cases performed
        refine Or.inl ⟨rfl, rfl, rfl, ?_, ?_⟩
        · dsimp only at short ⊢
          omega
        · intro active
          cases active
  case unknown => cases performed

def stackAt (game : PokerGame) (seat : Nat) : Int :=
  ((game.players[seat]?).map Player.chips).getD 0

def nextBlinds (game : PokerGame) (shuffle : Shuffle) : Nat × Nat :=
  (game.readyForBlinds shuffle).blindSeats

def blindPosts (game : PokerGame) (shuffle : Shuffle) : Int × Int :=
  (min game.smallBlind (game.stackAt (game.nextBlinds shuffle).1),
    min game.bigBlind (game.stackAt (game.nextBlinds shuffle).2))

/-- Whether the small blind of the next hand posts its last chips. -/
def smallBlindBroke (game : PokerGame) (shuffle : Shuffle) : Bool :=
  decide (game.stackAt (game.nextBlinds shuffle).1 ≤ game.smallBlind)

theorem openSeat_bet {game : PokerGame} (small : 0 < game.smallBlind) (big : 0 < game.bigBlind)
    {button smallSeat bigSeat seat : Nat} {player : Player} (chips : 0 ≤ player.chips) :
    (game.openSeat button smallSeat bigSeat seat player).currentBet =
      if seat = bigSeat then min game.bigBlind player.chips
      else if seat = smallSeat then min game.smallBlind player.chips else 0 := by
  have posting : ∀ (fresh : Player) (blind : Int), 0 < blind → fresh.chips = player.chips →
      fresh.currentBet = 0 → (fresh.bet blind).2.currentBet = min blind player.chips := by
    intro fresh blind positive same nothing
    obtain ⟨paid, _, bet, _⟩ := fresh.bet_spec blind (same ▸ chips)
    rw [bet, paid, nothing, same]
    omega
  unfold openSeat
  dsimp only
  split
  · exact posting _ _ big rfl rfl
  · split
    · exact posting _ _ small rfl rfl
    · rfl

/-- A small blind that is still `ACTIVE` had more than the blind. -/
theorem openSeat_small_active {game : PokerGame} {button smallSeat bigSeat : Nat}
    {player : Player} (chips : 0 ≤ player.chips) (apart : smallSeat ≠ bigSeat)
    (active : (game.openSeat button smallSeat bigSeat smallSeat player).status = .active) :
    game.smallBlind < player.chips := by
  have funded := openSeat_funded active
  unfold openSeat at funded
  dsimp only at funded
  rw [if_neg apart, if_pos rfl] at funded
  obtain ⟨paid, left, _, _⟩ := Player.bet_spec { player.resetForNewHand with
    isDealer := smallSeat == button, isSmallBlind := true } game.smallBlind chips
  rw [left, paid] at funded
  change 0 < player.chips - max 0 (min game.smallBlind player.chips) at funded
  omega

/-- A big blind that is still `ACTIVE` has posted the full blind. -/
theorem openSeat_big_active {game : PokerGame} {button smallSeat bigSeat : Nat}
    {player : Player} (chips : 0 ≤ player.chips)
    (active : (game.openSeat button smallSeat bigSeat bigSeat player).status = .active) :
    game.bigBlind < player.chips := by
  have funded := openSeat_funded active
  unfold openSeat at funded
  dsimp only at funded
  rw [if_pos rfl] at funded
  obtain ⟨paid, left, _, _⟩ := Player.bet_spec { player.resetForNewHand with
    isDealer := bigSeat == button, isBigBlind := true } game.bigBlind chips
  rw [left, paid] at funded
  change 0 < player.chips - max 0 (min game.bigBlind player.chips) at funded
  omega

end PokerGame

/-- The bets right after the blinds, and that a small blind without chips left is not
`ACTIVE`. -/
theorem OpenedHand.bet_of_seat {game next : PokerGame} {shuffle : Shuffle} {button : Nat}
    (hand : OpenedHand game button (game.nextBlinds shuffle).1 (game.nextBlinds shuffle).2 next)
    (small : 0 < game.smallBlind) (big : 0 < game.bigBlind)
    (solvent : ∀ player ∈ game.players, 0 ≤ player.chips)
    {seat : Nat} {player : Player} (here : next.players[seat]? = some player) :
    player.currentBet =
        (if seat = (game.nextBlinds shuffle).2 then (game.blindPosts shuffle).2
        else if seat = (game.nextBlinds shuffle).1 then (game.blindPosts shuffle).1 else 0) ∧
      (seat = (game.nextBlinds shuffle).1 → player.status = .active →
        game.smallBlindBroke shuffle = false) := by
  obtain ⟨before, cards, there, rfl⟩ := hand.player_of_seat here
  have chips := solvent before (List.mem_of_getElem? there)
  have stack : game.stackAt seat = before.chips := by simp [PokerGame.stackAt, there]
  constructor
  · refine (PokerGame.openSeat_bet small big chips).trans ?_
    split
    · rename_i atBig
      rw [PokerGame.blindPosts, ← atBig, stack]
    · split
      · rename_i atSmall
        rw [PokerGame.blindPosts, ← atSmall, stack]
      · rfl
  · intro atSmall active
    subst atSmall
    have above := PokerGame.openSeat_small_active chips hand.apart active
    unfold PokerGame.smallBlindBroke
    rw [stack, decide_eq_false_iff_not]
    omega

/-- The current bet right after the blinds is what the big blind posted. -/
theorem OpenedHand.currentBet_eq {game next : PokerGame} {shuffle : Shuffle} {button : Nat}
    (hand : OpenedHand game button (game.nextBlinds shuffle).1 (game.nextBlinds shuffle).2 next)
    (small : 0 < game.smallBlind) (big : 0 < game.bigBlind)
    (solvent : ∀ player ∈ game.players, 0 ≤ player.chips) :
    next.currentBet = (game.blindPosts shuffle).2 := by
  obtain ⟨before, there, _⟩ := hand.bigAlive
  have inside : (game.nextBlinds shuffle).2 < next.players.length := by
    rw [hand.length]
    exact (List.getElem?_eq_some_iff.mp there).1
  have here := List.getElem?_eq_getElem inside
  rw [hand.currentBet _ here, (hand.bet_of_seat small big solvent here).1, if_pos rfl]

namespace Reached

variable {table : Table} {state next : DriverState}

theorem outcome (reached : Reached table state) (blind : 0 < table.bigBlind)
    {decision : Decision} (listed : listedStep state (.decide decision) = true)
    (taken : driverStep state (.decide decision) = some next) :
    ∃ player action amount done, state.game.Turn player ∧
      state.game.performAction player player.id action amount = some done ∧
      next = ⟨.inHand, state.game.afterAction done player.id action amount⟩ ∧
      (done.Quiet state.game player ∨ done.Raises state.game player) ∧
      ((action = decision.action ∧ amount = decision.amount) ∨
        (action = .fold ∧ state.game.performAction player player.id decision.action
          decision.amount = none)) := by
  obtain ⟨stage, _, _, player, action, amount, done, turn, performed, moved, which⟩ :=
    reached.decided taken
  refine ⟨player, action, amount, done, turn, performed, moved, ?_, which⟩
  have funded := (reached.inPlay stage).funded player (List.mem_of_getElem? turn.here) turn.active
  refine PokerGame.performAction_outcome funded ?_ performed
  intro raises
  rcases which with ⟨same, amounts⟩ | ⟨folds, _⟩
  · simp only [listedStep, turn.here, Option.any_some] at listed
    rw [amounts]
    exact PokerGame.listed_fair reached.seated turn (reached.seated.blinds.2 ▸ blind)
      (reached.inPlay stage).bet listed (same ▸ raises)
  · rw [folds] at raises
    cases raises

end Reached

/-! ### The current bet is the highest bet -/

/-- The current bet bounds every bet and is one of them. -/
structure Level (game : PokerGame) : Prop where
  bounded : ∀ player ∈ game.players, player.currentBet ≤ game.currentBet
  attained : ∃ player ∈ game.players, player.currentBet = game.currentBet

theorem Level.afterAction {table : Table} {game : PokerGame} (level : Level game)
    (seated : Seated table game) (inPlay : InPlay game) {player : Player}
    (turn : game.Turn player) {action : Action} {amount : Int} {done : Performed}
    (performed : game.performAction player player.id action amount = some done)
    (outcome : done.Quiet game player ∨ done.Raises game player) :
    Level (game.afterAction done player.id action amount) := by
  have member := List.mem_of_getElem? turn.here
  have inside := (List.getElem?_eq_some_iff.mp turn.here).1
  have written := PokerGame.commitAction_players seated turn performed
  have own := level.bounded player member
  have pays := PokerGame.performAction_pays (inPlay.bounds player member).1 performed
  have paid := pays.paid
  have bet := pays.bet
  obtain ⟨seat, complete, frame⟩ := game.afterAction_frame done player.id action amount
  rw [frame]
  have actorIn : done.player ∈ (game.commitAction done player.id action amount).players := by
    rw [written]
    exact List.mem_set inside done.player
  refine ⟨?_, ?_⟩
  · intro other present
    change other.currentBet ≤ done.currentBet
    dsimp only at present
    rw [written] at present
    rcases List.mem_or_eq_of_mem_set present with old | rfl
    · have before := level.bounded other old
      rcases outcome with quiet | raises
      · rw [quiet.bet]
        exact before
      · have := raises.higher
        omega
    · rcases outcome with quiet | raises
      · have := quiet.low
        rw [quiet.bet]
        omega
      · exact Int.le_of_eq raises.bet.symm
  · rcases outcome with quiet | raises
    · obtain ⟨top, topIn, highest⟩ := level.attained
      change ∃ other ∈ (game.commitAction done player.id action amount).players,
        other.currentBet = done.currentBet
      rw [quiet.bet]
      -- the actor itself may be the one who holds the highest bet
      obtain ⟨topSeat, topAt⟩ := List.mem_iff_getElem?.mp topIn
      by_cases same : topSeat = game.currentPlayerIndex
      · rw [same, turn.here] at topAt
        cases topAt
        refine ⟨done.player, actorIn, ?_⟩
        have := quiet.low
        omega
      · refine ⟨top, ?_, highest⟩
        rw [written, List.mem_iff_getElem?]
        exact ⟨topSeat, by rw [List.getElem?_set_ne (Ne.symm same), topAt]⟩
    · exact ⟨done.player, actorIn, raises.bet.symm⟩

/-- The blinds leave the big blind's post as the highest bet when it covers the small one. -/
theorem OpenedHand.level {game next : PokerGame} {shuffle : Shuffle} {button : Nat}
    (hand : OpenedHand game button (game.nextBlinds shuffle).1 (game.nextBlinds shuffle).2 next)
    (small : 0 < game.smallBlind) (big : 0 < game.bigBlind)
    (solvent : ∀ player ∈ game.players, 0 ≤ player.chips)
    (covered : (game.blindPosts shuffle).1 ≤ (game.blindPosts shuffle).2) : Level next := by
  have current := hand.currentBet_eq small big solvent
  obtain ⟨before, there, chips⟩ := hand.bigAlive
  have inside : (game.nextBlinds shuffle).2 < next.players.length := by
    rw [hand.length]
    exact (List.getElem?_eq_some_iff.mp there).1
  refine ⟨?_, next.players[(game.nextBlinds shuffle).2], List.getElem_mem inside, ?_⟩
  · intro player member
    obtain ⟨seat, here⟩ := List.mem_iff_getElem?.mp member
    have bigPost : 0 < (game.blindPosts shuffle).2 := by
      simp only [PokerGame.blindPosts, PokerGame.stackAt, there, Option.map_some, Option.getD_some]
      omega
    rw [(hand.bet_of_seat small big solvent here).1, current]
    split
    · exact Int.le_refl _
    · split
      · exact covered
      · exact Int.le_of_lt bigPost
  · exact (hand.currentBet _ (List.getElem?_eq_getElem inside)).symm

theorem Level.nextPhase {game next : PokerGame} (level : Level game) {moved : Bool}
    (served : game.currentPhase.cardsNeeded ≤ game.deck.length)
    (returned : game.advanceToNextPhase = .ok (moved, next)) : Level next := by
  rcases PokerGame.advanceToNextPhase_frame served returned with ⟨phase, rfl⟩ |
    ⟨phase, count, describe, seat, complete, rfl⟩
  · exact ⟨level.bounded, level.attained⟩
  · refine ⟨?_, ?_⟩
    · intro player member
      obtain ⟨before, _, rfl⟩ := List.mem_map.mp member
      exact Int.le_refl 0
    · obtain ⟨player, member, _⟩ := level.attained
      exact ⟨player.resetForNewBettingRound, List.mem_map_of_mem member, rfl⟩

/-- The big blind of a hand about to start can post at least what the small blind posts. -/
def blindsCovered (state : DriverState) (event : DriverEvent) : Bool :=
  match event with
  | .newHand shuffle =>
      decide ((state.game.blindPosts shuffle).1 ≤ (state.game.blindPosts shuffle).2)
  | _ => true

theorem level_step {table : Table} {state next : DriverState} {event : DriverEvent}
    (blinds : 0 < table.smallBlind ∧ table.smallBlind ≤ table.bigBlind)
    (reached : Reached table state) (level : state.stage = .inHand → Level state.game)
    (listed : listedStep state event = true) (covered : blindsCovered state event = true)
    (taken : driverStep state event = some next) :
    next.stage = .inHand → Level next.game := by
  have bigBlind : 0 < table.bigBlind := by omega
  intro stays
  cases event with
  | newHand shuffle =>
      obtain ⟨_, _, button, hand⟩ := reached.opened taken
      have small : 0 < state.game.smallBlind := reached.seated.blinds.1 ▸ blinds.1
      have big : 0 < state.game.bigBlind := reached.seated.blinds.2 ▸ bigBlind
      exact OpenedHand.level hand small big reached.solvent.chips (by simpa [blindsCovered] using covered)
  | skip =>
      obtain ⟨stage, _, _, _, rfl⟩ := driverStep_skip taken
      obtain ⟨seat, complete, frame⟩ := state.game.advance_frame
      rw [frame]
      exact ⟨(level stage).bounded, (level stage).attained⟩
  | decide decision =>
      obtain ⟨stage, _⟩ := driverStep_decide taken
      obtain ⟨player, action, amount, done, turn, performed, rfl, outcome, _⟩ :=
        reached.outcome bigBlind listed taken
      exact (level stage).afterAction reached.seated (reached.inPlay stage) turn performed outcome
  | nextPhase =>
      obtain ⟨stage, _, _, moved, returned, _⟩ := driverStep_nextPhase taken
      exact (level stage).nextPhase reached.solvent.served returned
  | showdown =>
      obtain ⟨_, _, _, _, ended⟩ := driverStep_showdown taken
      rw [ended] at stays
      cases stays

/-- What the view of a player shows as `to_call`, when no bet is above the current one. -/
theorem Level.view_toCall {game : PokerGame} (level : Level game) {playerId : Int}
    {view : GameState} (shown : game.getLlmGameState playerId = .ok view) :
    view.toCall = game.currentBet - view.yourBetThisRound := by
  unfold PokerGame.getLlmGameState at shown
  split at shown
  · cases shown
  · rename_i player found
    split at shown
    · cases shown
    · cases shown
      have own := level.bounded player (List.mem_of_find?_eq_some found)
      simp only [PokerGame.toCall]
      omega

/-- Along every run of listed decisions in which the big blind of each hand can cover the
small one's post, the current bet is the highest bet and `to_call` is what matches it. -/
theorem current_bet_is_highest (table : Table) (events : List DriverEvent) (state : DriverState)
    (blinds : 0 < table.smallBlind ∧ table.smallBlind ≤ table.bigBlind)
    (played : Runs.run driverStep table.start events = some state)
    (listed : Runs.meets driverStep listedStep table.start events = true)
    (covered : Runs.meets driverStep blindsCovered table.start events = true)
    (stage : state.stage = .inHand) :
    (state.game.players.map Player.currentBet).max? = some state.game.currentBet ∧
      ∀ playerId view, state.game.getLlmGameState playerId = .ok view →
        view.toCall = state.game.currentBet - view.yourBetThisRound := by
  have holds : Reached table state ∧ (state.stage = .inHand → Level state.game) :=
    Runs.run_invariant
      (fun state => Reached table state ∧ (state.stage = .inHand → Level state.game))
      (fun before event after ⟨reached, level⟩ allowed taken =>
        have ⟨first, second⟩ := Bool.and_eq_true_iff.mp allowed
        ⟨reached.step taken, level_step blinds reached level first second taken⟩)
      ⟨table.reached_start, fun stage => nomatch stage⟩ (Runs.meets_and listed covered) played
  have level := holds.2 stage
  refine ⟨?_, fun playerId view shown => level.view_toCall shown⟩
  rw [List.max?_eq_some_iff]
  obtain ⟨top, topIn, highest⟩ := level.attained
  refine ⟨List.mem_map.mpr ⟨top, topIn, highest⟩, ?_⟩
  intro bet member
  obtain ⟨player, inside, rfl⟩ := List.mem_map.mp member
  exact level.bounded player inside

def shortBigBlind : Table where
  smallBlind := 10
  bigBlind := 20
  chips := [100, 100, 5]
  button := 2
  seats_ge := by decide
  seats_le := by decide
  chips_pos := by decide
  button_lt := by decide

/-- The big blind's five chips become the current bet under the small blind's ten. -/
theorem short_big_blind_below_small :
    ∃ state, Runs.run driverStep shortBigBlind.start [.newHand .unshuffled] = some state ∧
      state.stage = .inHand ∧ state.game.currentBet = 5 ∧
      (state.game.players.map Player.currentBet).max? = some 10 :=
  ⟨_, rfl, rfl, rfl, rfl⟩

theorem current_bet_is_highest_heads_up :
    ∃ state, Runs.run driverStep headsUp.start
        [.newHand .unshuffled, .decide ⟨.raise, 40⟩] = some state ∧
      (state.game.players.map Player.currentBet).max? = some state.game.currentBet :=
  ⟨_, rfl, (current_bet_is_highest headsUp [.newHand .unshuffled, .decide ⟨.raise, 40⟩] _
    (by decide) rfl rfl rfl rfl).1⟩

end Holdem
