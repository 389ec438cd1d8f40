import Holdem.AgentOnly

set_option autoImplicit false

namespace Holdem

/-! ### What a driver run hands to a player -/

/-- What the showdown of a step awards a player. -/
def awardsOf (playerId : Int) (state : DriverState) : DriverEvent → List Award
  | .showdown =>
      match state.game.conductShowdown with
      | .error _ => []
      | .ok settled => settled.2.results.filter fun award => award.playerId == playerId
  | _ => []

def winsOf (playerId : Int) (state : DriverState) (event : DriverEvent) : Int :=
  (awardsOf playerId state event).length

def winningsOf (playerId : Int) (state : DriverState) (event : DriverEvent) : Int :=
  ((awardsOf playerId state event).map Award.winnings).sum

/-- What a player has bet in the hand that a step ends. -/
def stakedBy (playerId : Int) (state : DriverState) : DriverEvent → Int
  | .showdown => ((state.game.getPlayer playerId).map Player.totalBetThisHand).getD 0
  | _ => 0

/-- Whether a step deals a player two cards. -/
def dealtTo (playerId : Int) (state : DriverState) : DriverEvent → Int
  | .newHand shuffle =>
      match state.game.startNewHand shuffle with
      | .error _ => 0
      | .ok opened =>
          if (opened.getPlayer playerId).any fun player => player.holeCards.length == 2 then 1
          else 0
  | _ => 0

namespace PokerGame

variable {game next : PokerGame}

/-! ### What a showdown does to a seat -/

theorem creditAll_seat {players : List Player} {items : List (Int × Int)} {seat : Nat}
    {player : Player} (distinct : (players.map Player.id).Nodup)
    (here : players[seat]? = some player) :
    (creditAll players items)[seat]? = some { player with
      chips := player.chips +
        ((items.filter fun item => item.1 == player.id).map Prod.snd).sum } := by
  induction items generalizing players player with
  | nil => simpa [creditAll] using here
  | cons item rest ih =>
      have ids : (creditPlayer players item.1 item.2).map Player.id = players.map Player.id :=
        creditAll_map (fun _ _ => rfl) players [item]
      have first : (creditPlayer players item.1 item.2)[seat]? = some { player with
          chips := player.chips + if item.1 = player.id then item.2 else 0 } := by
        unfold creditPlayer
        split
        · rename_i missing
          have apart : item.1 ≠ player.id := by
            intro same
            have := List.find?_eq_none.mp missing player (List.mem_of_getElem? here)
            simp [same] at this
          rw [if_neg apart, here, Int.add_zero]
        · rename_i winner found
          obtain ⟨place, there, own, written⟩ := putPlayer_eq_set found
          rw [written { winner with chips := winner.chips + item.2 } rfl]
          by_cases same : item.1 = player.id
          · have one := List.inj_on_of_nodup_map distinct (List.mem_of_getElem? there)
              (List.mem_of_getElem? here) (own.trans same)
            have seatIs : place = seat := by
              obtain ⟨inside, atPlace⟩ := List.getElem?_eq_some_iff.mp there
              obtain ⟨insideToo, atSeat⟩ := List.getElem?_eq_some_iff.mp here
              have nodup := distinct.of_map
              exact (nodup.getElem_inj_iff).mp (by rw [atPlace, atSeat, one])
            rw [seatIs, List.getElem?_set_self (List.getElem?_eq_some_iff.mp here).1, if_pos same,
              one]
          · have apart : place ≠ seat := by
              rintro rfl
              rw [here] at there
              cases there
              exact same own.symm
            rw [List.getElem?_set_ne apart, here, if_neg same, Int.add_zero]
      have later := ih (by rwa [ids]) first
      refine later.trans ?_
      rw [List.filter_cons]
      by_cases same : item.1 = player.id
      · simp [same, Int.add_assoc]
      · simp [same]

theorem awards_to {playerId : Int} (seated : (game.getPlayer playerId).isSome)
    (items : List (Int × Int)) (award : Int × Int → Award)
    (named : ∀ item, (award item).playerId = item.1) :
    ((items.filter fun item => (game.getPlayer item.1).isSome).map award).filter
        (fun award => award.playerId == playerId) =
      (items.filter fun item => item.1 == playerId).map award := by
  rw [List.filter_map, List.filter_filter]
  congr 1
  apply List.filter_congr
  intro item _
  rw [Function.comp_apply, named]
  by_cases own : item.1 = playerId
  · simp [own, seated]
  · simp [own]

theorem conductShowdown_credits {result : ShowdownResult} {seat : Nat} {player : Player}
    (distinct : (game.players.map Player.id).Nodup)
    (returned : game.conductShowdown = .ok (next, result))
    (here : game.players[seat]? = some player) :
    next.players[seat]? = some { player with
      chips := player.chips + ((result.results.filter fun award =>
        award.playerId == player.id).map Award.winnings).sum } := by
  have inside := List.mem_of_getElem? here
  unfold conductShowdown at returned
  split at returned
  · cases returned
    simpa using here
  · rename_i winner listed
    cases returned
    have only : player.status.remains = true → player = winner := by
      intro remains
      have member : player ∈ game.remainingPlayers := List.mem_filter.mpr ⟨inside, remains⟩
      rw [listed] at member
      exact List.mem_singleton.mp member
    have winnerIn : winner ∈ game.remainingPlayers := by
      rw [listed]
      exact List.mem_singleton.mpr rfl
    obtain ⟨seated, remaining⟩ := List.mem_filter.mp winnerIn
    rw [List.getElem?_map, here, Option.map_some]
    by_cases remains : player.status.remains = true
    · obtain rfl := only remains
      simp [remains]
    · have apart : winner.id ≠ player.id := by
        intro same
        rw [List.inj_on_of_nodup_map distinct seated inside same] at remaining
        exact remains remaining
      simp [remains, apart]
  · split at returned
    · cases returned
    · rename_i hands _
      cases returned
      refine (creditAll_seat distinct here).trans ?_
      have found : (game.getPlayer player.id).isSome := by
        rw [getPlayer_of_mem distinct inside]
        rfl
      dsimp only [contestedShowdown]
      rw [awards_to found _ _ fun _ => rfl, List.map_map]
      rfl

end PokerGame

/-! ### One step of the driver, seat by seat -/

/-- The chips of a player, with his part of the pot while a hand is played. -/
def DriverState.holding (state : DriverState) (player : Player) : Int :=
  if state.stage = .inHand then player.stake else player.chips

section Steps

variable {table : Table} {state next : DriverState} {event : DriverEvent} {seat : Nat}
  {before after : Player}

theorem Reached.stakes (reached : Reached table state) (stage : state.stage = .inHand)
    (taken : driverStep state event = some next) (going : event ≠ .showdown) :
    next.stage = .inHand ∧
      next.game.players.map Player.stake = state.game.players.map Player.stake := by
  obtain ⟨start, invariant⟩ := (reached.inPlay stage).books
  cases event with
  | newHand shuffle =>
      obtain ⟨between, _⟩ := driverStep_newHand taken
      rw [stage] at between
      cases between
  | skip =>
      obtain ⟨_, _, _, _, rfl⟩ := driverStep_skip taken
      obtain ⟨_, _, frame⟩ := state.game.advance_frame
      exact ⟨rfl, by rw [frame]⟩
  | decide decision =>
      obtain ⟨_, _, _, player, action, amount, done, turn, performed, rfl, _⟩ :=
        reached.decided taken
      have kept := invariant.process player.id action amount
      rw [PokerGame.process_of_turn reached.seated turn, performed] at kept
      exact ⟨rfl, kept.accounts.stakes.trans invariant.accounts.stakes.symm⟩
  | nextPhase =>
      have stays := nextPhase_stays taken
      obtain ⟨_, _, _, moved, returned, _⟩ := driverStep_nextPhase taken
      obtain ⟨_, other, same, kept⟩ := invariant.nextPhase
      rw [returned, Except.ok.injEq, Prod.mk.injEq] at same
      rw [← same.2] at kept
      exact ⟨stays, kept.accounts.stakes.trans invariant.accounts.stakes.symm⟩
  | showdown => exact absurd rfl going

/-- What a seat holds changes at a showdown only, by what it is awarded less what it bet. -/
theorem Reached.holding (reached : Reached table state)
    (taken : driverStep state event = some next) (here : state.game.players[seat]? = some before)
    (there : next.game.players[seat]? = some after) :
    next.holding after + stakedBy before.id state event =
      state.holding before + winningsOf before.id state event := by
  have same : ∀ {left right : Player → Int},
      next.game.players.map right = state.game.players.map left → right after = left before := by
    intro left right equal
    have images := congrArg (fun images => images[seat]?) equal
    simpa only [List.getElem?_map, here, there, Option.map_some, Option.some.injEq] using images
  unfold DriverState.holding
  by_cases stage : state.stage = .inHand
  · by_cases shown : event = .showdown
    · subst shown
      obtain ⟨_, _, result, returned, between⟩ := driverStep_showdown taken
      have credited := PokerGame.conductShowdown_credits reached.seated.distinct returned here
      rw [there] at credited
      have chips := congrArg Player.chips (Option.some.inj credited)
      dsimp only at chips
      have found := PokerGame.getPlayer_of_mem reached.seated.distinct
        (List.mem_of_getElem? here)
      simp only [stage, between, stakedBy, winningsOf, awardsOf, returned, found, Option.map_some,
        Option.getD_some, reduceCtorEq, ↓reduceIte, Player.stake]
      rw [chips]
      omega
    · obtain ⟨stays, stakes⟩ := reached.stakes stage taken shown
      have kept := same stakes
      have quiet : stakedBy before.id state event = 0 ∧ winningsOf before.id state event = 0 := by
        cases event with
        | showdown => exact absurd rfl shown
        | newHand shuffle => exact ⟨rfl, rfl⟩
        | skip => exact ⟨rfl, rfl⟩
        | decide decision => exact ⟨rfl, rfl⟩
        | nextPhase => exact ⟨rfl, rfl⟩
      rw [if_pos stays, if_pos stage, quiet.1, quiet.2, kept]
  · cases event with
    | newHand shuffle =>
        obtain ⟨_, opened, button, hand⟩ := reached.opened taken
        have stakes := same (hand.accounts reached.solvent.chips).stakes
        rw [if_pos opened, if_neg stage, stakes]
        rfl
    | skip => exact absurd (driverStep_skip taken).1 stage
    | decide decision => exact absurd (driverStep_decide taken).1 stage
    | nextPhase => exact absurd (driverStep_nextPhase taken).1 stage
    | showdown => exact absurd (driverStep_showdown taken).1 stage

/-- Nobody goes `BUSTED` within a hand, and nobody comes back. -/
theorem Reached.busted_iff (reached : Reached table state)
    (taken : driverStep state event = some next) (stage : state.stage = .inHand)
    (here : state.game.players[seat]? = some before)
    (there : next.game.players[seat]? = some after) :
    after.status = .busted ↔ before.status = .busted := by
  have same : ∀ {read : Player → PlayerStatus},
      next.game.players.map read = state.game.players.map read → read after = read before := by
    intro read equal
    have images := congrArg (fun images => images[seat]?) equal
    simpa only [List.getElem?_map, here, there, Option.map_some, Option.some.injEq] using images
  cases event with
  | newHand shuffle =>
      obtain ⟨between, _⟩ := driverStep_newHand taken
      rw [stage] at between
      cases between
  | skip =>
      obtain ⟨_, _, _, _, rfl⟩ := driverStep_skip taken
      obtain ⟨_, _, frame⟩ := state.game.advance_frame
      rw [frame] at there
      rw [here] at there
      cases there
      rfl
  | decide decision =>
      obtain ⟨_, _, _, player, action, amount, done, turn, performed, rfl, _⟩ :=
        reached.decided taken
      obtain ⟨_, _, frame⟩ := state.game.afterAction_frame done player.id action amount
      have written := PokerGame.commitAction_players reached.seated turn performed
      rw [frame] at there
      dsimp only at there
      rw [written] at there
      by_cases acting : state.game.currentPlayerIndex = seat
      · subst acting
        rw [turn.here] at here
        cases here
        rw [List.getElem?_set_self (List.getElem?_eq_some_iff.mp turn.here).1] at there
        cases there
        constructor
        · exact fun busted => absurd busted (PokerGame.performAction_notBusted turn.active performed)
        · intro busted
          rw [turn.active] at busted
          cases busted
      · rw [List.getElem?_set_ne acting, here] at there
        cases there
        rfl
  | nextPhase =>
      obtain ⟨_, _, _, moved, returned, _⟩ := driverStep_nextPhase taken
      have statuses : next.game.players.map Player.status =
          state.game.players.map Player.status := by
        rcases PokerGame.advanceToNextPhase_frame reached.solvent.served returned with
          ⟨phase, frame⟩ | ⟨phase, count, describe, place, complete, frame⟩
        · rw [frame]
        · rw [frame]
          simp only [List.map_map]
          rfl
      rw [same statuses]
  | showdown =>
      obtain ⟨_, _, result, returned, _⟩ := driverStep_showdown taken
      rw [same (PokerGame.conductShowdown_map (f := Player.status) (fun _ _ => rfl) returned)]

/-- A new hand deals to those who have chips, and the others are `BUSTED` from then on. -/
theorem Reached.deals (reached : Reached table state) {shuffle : Shuffle}
    (taken : driverStep state (.newHand shuffle) = some next)
    (here : state.game.players[seat]? = some before)
    (there : next.game.players[seat]? = some after) :
    dealtTo before.id state (.newHand shuffle) = if after.status = .busted then 0 else 1 := by
  obtain ⟨_, _, game, returned, rfl⟩ := driverStep_newHand taken
  obtain ⟨_, _, button, hand⟩ := reached.opened taken
  have own : after.id = before.id := by
    have ids := (reached.step taken).seated.id_eq there
    rw [ids, reached.seated.id_eq here]
  have found := PokerGame.getPlayer_of_mem (reached.step taken).seated.distinct
    (List.mem_of_getElem? there)
  have found : game.getPlayer before.id = some after := own ▸ found
  unfold dealtTo
  dsimp only
  rw [returned]
  dsimp only
  rw [found, Option.any_some]
  by_cases busted : after.status = .busted
  · have count := (PokerGame.startNewHand_cards returned).2.2 (by rw [hand.phase]; decide) _
      (List.mem_of_getElem? there)
    rw [if_pos busted] at count
    rw [if_pos busted, count]
    rfl
  · have count := hand.cards after (List.mem_of_getElem? there) busted
    rw [if_neg busted, count]
    rfl

end Steps

/-! ### One pass of the loop -/

/-- What the loop can rely on when it writes to the history: the chips in play can be counted in
64 bits, the hand in play has its id, and what was written was stored. -/
structure Banked (table : Table) (state : DriverState) : Prop where
  underway : Underway table state
  small : state.chipsInPlay < 2 ^ 63
  recorded : PotRecorded state
  fits : state.game.db.Fits

theorem Banked.step {table : Table} {state next : DriverState} {event : DriverEvent}
    (banked : Banked table state) (taken : driverStep state event = some next)
    (fits : next.game.db.Fits) : Banked table next := by
  have reached := banked.underway.reached
  refine ⟨banked.underway.step taken, ?_, banked.recorded.step reached taken, fits⟩
  have kept := reached.chipsInPlay taken
  have lost := chipsLost_nonneg state event
  have small := banked.small
  omega

theorem Table.banked_start (table : Table) (small : table.chips.sum < 2 ^ 63) :
    Banked table table.start := by
  have played : Runs.run driverStep table.start [] = some table.start := rfl
  have brought := chipsInPlay_le played
  refine ⟨table.underway_start, by omega, (table.potRecorded played).2, ?_⟩
  exact ⟨fun _ => nofun, fun _ => nofun, fun _ => nofun⟩

theorem PokerGame.stored_ok {game : PokerGame} (fits : game.db.Fits) : game.stored = .ok game :=
  if_pos fits

/-- What a pass does: leave the loop, open a hand, go on with one, end it with a showdown, or
raise at the turn of an agent. -/
inductive AgentPassKind (maxHands : Nat) (chance : AgentChance) (state : AgentState) :
    Loops.Pass AgentState AgentFault → Prop
  | left (stage : state.driver.stage = .betweenHands)
      (finished : state.driver.game.isGameOver = true ∨ maxHands ≤ state.handCount) :
      AgentPassKind maxHands chance state (.done state)
  | opens (stats : List (String × PlayerStats)) (next : DriverState)
      (stage : state.driver.stage = .betweenHands) (more : state.handCount < maxHands)
      (counted : countHand (state.handCount + 1) state.driver.game.players state.stats = .ok stats)
      (taken : driverStep state.driver (.newHand chance.shuffle) = some next)
      (fits : next.game.db.Fits) :
      AgentPassKind maxHands chance state (.next ⟨state.handCount + 1, stats, next⟩)
  | plays (event : DriverEvent) (next : DriverState) (stage : state.driver.stage = .inHand)
      (going : event ≠ .showdown) (smooth : state.driver.game.trips chance = false)
      (taken : driverStep state.driver event = some next) (fits : next.game.db.Fits) :
      AgentPassKind maxHands chance state (.next ⟨state.handCount, state.stats, next⟩)
  | settles (stats : List (String × PlayerStats)) (settled : PokerGame × ShowdownResult)
      (stage : state.driver.stage = .inHand) (smooth : state.driver.game.trips chance = false)
      (returned : state.driver.game.conductShowdown = .ok settled)
      (counted : countWins settled.1 settled.2.results state.stats = .ok stats)
      (taken : driverStep state.driver .showdown = some ⟨.betweenHands, settled.1⟩)
      (fits : settled.1.db.Fits) :
      AgentPassKind maxHands chance state
        (.next ⟨state.handCount, stats, ⟨.betweenHands, settled.1⟩⟩)
  | trips (fault : AgentFault) (stage : state.driver.stage = .inHand)
      (trips : state.driver.game.trips chance = true) :
      AgentPassKind maxHands chance state (.raised fault)

section Passes

variable {table : Table} {game : PokerGame}

theorem agentTurn_step (banked : Banked table ⟨.inHand, game⟩)
    (playing : game.currentPhase.playing = true) (running : game.bettingRoundComplete = false)
    (chance : AgentChance) :
    (game.trips chance = true ∧ ∃ fault, agentTurn chance game = .error fault) ∨
      (game.trips chance = false ∧ ∃ event next, agentTurn chance game = .ok next ∧
        event ≠ .showdown ∧ driverStep ⟨.inHand, game⟩ event = some ⟨.inHand, next⟩ ∧
        next.db.Fits) := by
  have reached := banked.underway.reached
  have inPlay : InPlay game := reached.inPlay rfl
  have seated : Seated table game := reached.seated
  obtain ⟨player, here⟩ : ∃ player, game.players[game.currentPlayerIndex]? = some player :=
    ⟨_, List.getElem?_eq_getElem inPlay.turn⟩
  unfold agentTurn PokerGame.trips
  rw [here, playing, running]
  dsimp only
  by_cases active : player.status = .active
  · have turn : game.Turn player := ⟨here, active⟩
    rw [if_neg (by simpa using active)]
    obtain ⟨view, seen, _⟩ := PokerGame.getLlmGameState_turn seated turn
    rw [seen]
    dsimp only
    have taken : driverStep ⟨.inHand, game⟩ (.decide chance.decision) =
        some ⟨.inHand, game.decideOrFold player.id chance.decision⟩ := by
      simp [driverStep, playing, running, here, active]
    obtain ⟨action, amount, done, performed, result, which⟩ :=
      PokerGame.decideOrFold_spec seated turn chance.decision
    have after := banked.underway.step taken
    have small : (DriverState.mk .inHand
        (game.afterAction done player.id action amount)).chipsInPlay < 2 ^ 63 := by
      have kept := reached.chipsInPlay taken
      have below := banked.small
      rw [result] at kept
      change _ + (0 : Int) = _ at kept
      omega
    rw [result] at after taken ⊢
    have stores := reached.fits_action turn (banked.recorded.started rfl) after.reached small
      banked.fits
    have column : game.oversized player chance.decision =
        !decide (game.afterAction done player.id action amount).db.Fits := by
      have same : decide (game.afterAction done player.id action amount).db.Fits =
          decide (FitsColumn (PokerGame.recordedAmount done action amount)) :=
        decide_eq_decide.mpr stores
      rw [same]
      unfold PokerGame.oversized
      rcases which with ⟨rfl, rfl⟩ | ⟨rfl, refused⟩
      · rw [performed]
      · rw [refused]
        rfl
    rw [column, active]
    by_cases fits : (game.afterAction done player.id action amount).db.Fits
    · rw [PokerGame.stored_ok fits, decide_eq_true fits]
      dsimp only
      cases printed : printReasoning chance.reasoning with
      | error fault => exact Or.inl ⟨rfl, fault, rfl⟩
      | ok _ => exact Or.inr ⟨rfl, .decide chance.decision, _, rfl, by simp, taken, fits⟩
    · left
      rw [decide_eq_false fits]
      unfold PokerGame.stored
      rw [if_neg fits]
      exact ⟨rfl, _, rfl⟩
  · rw [if_pos active]
    have idle : game.isActive game.currentPlayerIndex = false := by
      unfold PokerGame.isActive
      rw [here]
      simpa using active
    refine Or.inr ⟨by simp [active], .skip, _, rfl, by simp, ?_, ?_⟩
    · simp [driverStep, playing, running, idle]
    · rw [game.advance_db.1]
      exact banked.fits

/-- A pass raises at the turn of an agent that trips it, and at no other time, as long as
everybody has an entry. -/
theorem agentPass_kind (maxHands : Nat) (chance : Nat → AgentChance) {state : AgentState}
    (banked : Banked table state.driver)
    (blinds : FitsColumn table.smallBlind ∧ FitsColumn table.bigBlind)
    (entered : ∀ seat, seat < table.chips.length →
      (state.stats.lookup (agentName (seat : Nat))).isSome) (time : Nat) :
    AgentPassKind maxHands (chance time) state (agentPass maxHands chance time state) := by
  obtain ⟨handCount, stats, stage, game⟩ := state
  have underway := banked.underway
  have reached := underway.reached
  have kept : ∀ {event : DriverEvent} {next : DriverState},
      driverStep ⟨stage, game⟩ event = some next → next.chipsInPlay < 2 ^ 63 := by
    intro event next taken
    have same := reached.chipsInPlay taken
    have lost := chipsLost_nonneg ⟨stage, game⟩ event
    have small := banked.small
    dsimp only at small same
    omega
  have everybody : ∀ {players : List Player}, players.map Player.id = game.players.map Player.id →
      Entered stats players := by
    intro players ids player member
    have known : player.id ∈ game.players.map Player.id := ids ▸ List.mem_map_of_mem member
    rw [reached.seated.ids] at known
    obtain ⟨seat, inside, same⟩ := List.mem_map.mp known
    rw [← same]
    exact entered seat (List.mem_range.mp inside)
  cases stage with
  | stopped => exact absurd rfl underway.going
  | betweenHands =>
      unfold agentPass
      dsimp only
      by_cases finished : (game.isGameOver || decide (maxHands ≤ handCount)) = true
      · rw [if_pos finished]
        exact .left rfl (by simpa using finished)
      · rw [if_neg finished]
        simp only [Bool.or_eq_true, decide_eq_true_eq, not_or, Bool.not_eq_true] at finished
        obtain ⟨after, counted, _⟩ := countHand_spec (handCount + 1) (everybody rfl)
        obtain ⟨_, opened, returned, _⟩ :=
          PokerGame.startNewHand_opens (chance time).shuffle reached.solvent.few finished.1
        have returned : game.startNewHand (chance time).shuffle = .ok opened := returned
        have taken : driverStep ⟨.betweenHands, game⟩ (.newHand (chance time).shuffle) = some
            ⟨if opened.currentPhase = .finished then .stopped else .inHand, opened⟩ := by
          simp [driverStep, finished.1, returned]
        have fits := reached.fits_newHand taken (kept taken) blinds banked.fits
        rw [counted]
        dsimp only
        rw [returned]
        dsimp only
        rw [PokerGame.stored_ok fits]
        exact .opens after _ rfl (Nat.lt_of_not_le finished.2) counted taken fits
  | inHand =>
      have inPlay : InPlay game := reached.inPlay rfl
      unfold agentPass agentHand
      dsimp only
      by_cases playing : game.currentPhase.playing = true
      · rw [if_pos playing]
        by_cases complete : game.bettingRoundComplete = true
        · rw [if_pos complete]
          obtain ⟨start, invariant⟩ := inPlay.books
          obtain ⟨moved, next, returned, _⟩ := invariant.nextPhase
          have taken : driverStep ⟨.inHand, game⟩ .nextPhase =
              some ⟨if moved then .inHand else .betweenHands, next⟩ := by
            simp [driverStep, playing, complete, returned]
          rw [returned]
          exact .plays .nextPhase _ rfl (by simp) (by simp [PokerGame.trips, complete]) taken
            (reached.fits_nextPhase taken banked.fits)
        · have running : game.bettingRoundComplete = false := by simpa using complete
          rw [if_neg complete]
          rcases agentTurn_step banked playing running (chance time) with
            ⟨trips, fault, raised⟩ | ⟨smooth, event, next, turned, going, taken, fits⟩
          · rw [raised]
            exact .trips fault rfl trips
          · rw [turned]
            exact .plays event _ rfl going smooth taken fits
      · rw [if_neg playing]
        have phase : game.currentPhase = .showdown := by
          have := underway.phase rfl
          cases shown : game.currentPhase <;> simp_all [GamePhase.playing]
        rw [if_pos phase]
        have held : ∀ player ∈ game.remainingPlayers, player.holeCards ≠ [] := by
          intro player member
          obtain ⟨inside, remains⟩ := List.mem_filter.mp member
          exact inPlay.cards player inside remains
        obtain ⟨settled, returned⟩ := PokerGame.conductShowdown_returns held
        have ids := (PokerGame.conductShowdown_seats returned).1
        obtain ⟨after, counted, _⟩ := countWins_spec settled.2.results (everybody ids)
        have taken : driverStep ⟨.inHand, game⟩ .showdown = some ⟨.betweenHands, settled.1⟩ := by
          simp [driverStep, phase, returned]
        have fits := reached.fits_showdown taken (kept taken) banked.fits
        rw [returned]
        dsimp only
        rw [PokerGame.stored_ok fits]
        dsimp only
        rw [counted]
        exact .settles after settled rfl (by simp [PokerGame.trips, playing]) returned counted
          taken fits

end Passes

end Holdem
