import Holdem.AgentTally

set_option autoImplicit false

namespace Holdem

/-! ### How often a player can win -/

/-- A showdown awards a player at most once, and nothing to one who is `BUSTED`. -/
theorem awards_le {game next : PokerGame} {result : ShowdownResult} {seat : Nat} {player : Player}
    (distinct : (game.players.map Player.id).Nodup)
    (returned : game.conductShowdown = .ok (next, result))
    (here : game.players[seat]? = some player) :
    (result.results.filter fun award => award.playerId == player.id).length ≤
      if player.status = .busted then 0 else 1 := by
  have inside := List.mem_of_getElem? here
  have out : player.status = .busted → player.id ∉ game.remainingPlayers.map Player.id := by
    intro busted listed
    obtain ⟨other, remains, own⟩ := List.mem_map.mp listed
    obtain ⟨seated, status⟩ := List.mem_filter.mp remains
    rw [List.inj_on_of_nodup_map distinct seated inside own, busted] at status
    cases status
  unfold PokerGame.conductShowdown at returned
  split at returned
  · cases returned
    exact Nat.zero_le _
  · rename_i winner listed
    cases returned
    rw [listed] at out
    split
    · rename_i busted
      have apart : winner.id ≠ player.id := by simpa using Ne.symm (by simpa using out busted)
      simp [apart]
    · exact List.length_filter_le _ _
  · rename_i first second rest listed
    split at returned
    · cases returned
    · rename_i hands evaluated
      cases returned
      have shown : hands.map PlayerHand.player = game.remainingPlayers := by
        rw [listed]
        exact PokerGame.evaluatePlayers_players evaluated
      have found : (game.getPlayer player.id).isSome := by
        rw [PokerGame.getPlayer_of_mem distinct inside]
        rfl
      obtain ⟨_, _, winners⟩ := distributeLayers_spec (PokerGame.shown_lookup distinct shown)
        (buildPotLayers game.contributions)
      have order : (sortedItems (game.settled hands).winningsMap).Perm
        (game.settled hands).winningsMap := List.perm_insertionSort _ _
      have once := (order.map Prod.fst).nodup_iff.mpr
        (distributeLayers_keys_nodup _ (game.remainingPlayers.map Player.id)
          (buildPotLayers game.contributions))
      dsimp only [PokerGame.contestedShowdown]
      rw [PokerGame.awards_to found _ _ fun _ => rfl, List.length_map]
      change ((sortedItems (game.settled hands).winningsMap).filter fun item =>
        item.1 == player.id).length ≤ _
      split
      · rename_i busted
        rw [Nat.le_zero, List.length_eq_zero_iff, List.filter_eq_nil_iff]
        intro item member same
        refine out busted ?_
        rw [← beq_iff_eq.mp same]
        exact winners item.1 (List.mem_map_of_mem (order.mem_iff.mp member))
      · rw [← List.countP_eq_length_filter]
        have atMost := List.nodup_iff_count_le_one.mp once player.id
        rwa [List.count_eq_countP, List.countP_map] at atMost

/-! ### The tally along a run -/

/-- What the statistics say of a seat after the events of a run, and what is true of it. -/
structure SeatTally (table : Table) (agentType : Int → String) (events : List DriverEvent)
    (state : AgentState) (seat : Nat) (stack : Int) (player : Player) (entry : PlayerStats) :
    Prop where
  here : state.driver.game.players[seat]? = some player
  listed : state.stats.lookup (agentName (seat : Nat)) = some entry
  agent : entry.agentType = agentType (seat : Nat)
  won : (entry.handsWon : Int) = Runs.spent driverStep (winsOf (seat : Nat)) table.start events
  winnings : entry.totalWinnings =
    Runs.spent driverStep (winningsOf (seat : Nat)) table.start events
  money : state.driver.holding player +
      Runs.spent driverStep (stakedBy (seat : Nat)) table.start events =
    stack + entry.totalWinnings
  dealt : player.status ≠ .busted →
    Runs.spent driverStep (dealtTo (seat : Nat)) table.start events = state.handCount
  counted : (entry.handsPlayed : Int) =
    Runs.spent driverStep (dealtTo (seat : Nat)) table.start events +
      if player.status = .busted then 1 else 0
  rate : (entry.handsWon : Int) +
      (if state.driver.stage = .inHand ∧ player.status ≠ .busted then 1 else 0) ≤
    Runs.spent driverStep (dealtTo (seat : Nat)) table.start events

/-- The loop has come to a state by a run of the driver, and the statistics tell of it. -/
structure Tallied (table : Table) (agentType : Int → String) (maxHands : Nat)
    (events : List DriverEvent) (state : AgentState) : Prop where
  banked : Banked table state.driver
  reached : Runs.run driverStep table.start events = some state.driver
  opened : events.countP DriverEvent.opensHand = state.handCount
  within : state.handCount ≤ maxHands
  seats : ∀ (seat : Nat) (stack : Int), table.chips[seat]? = some stack →
    ∃ player entry, SeatTally table agentType events state seat stack player entry

section Tally

variable {table : Table} {agentType : Int → String} {maxHands : Nat} {events : List DriverEvent}
  {state : AgentState}

theorem Tallied.start (table : Table) (agentType : Int → String) (maxHands : Nat)
    (small : table.chips.sum < 2 ^ 63) :
    Tallied table agentType maxHands [] (table.startAgents agentType) := by
  refine ⟨table.banked_start small, rfl, rfl, Nat.zero_le _, ?_⟩
  intro seat stack here
  have seated : table.game.players[seat]? = some { id := seat, chips := stack } := by
    simp [Table.game, List.getElem?_mapIdx, here]
  have keys : (table.game.players.map fun player =>
      (agentName player.id, ({ agentType := agentType player.id } : PlayerStats))).map Prod.fst =
        (table.game.players.map Player.id).map agentName := by
    rw [List.map_map, List.map_map]
    rfl
  have distinct : ((table.game.players.map fun player =>
      (agentName player.id, ({ agentType := agentType player.id } : PlayerStats))).map
        Prod.fst).Nodup := by
    rw [keys]
    exact table.reached_start.seated.distinct.map agentName_injective
  refine ⟨_, { agentType := agentType (seat : Nat) }, seated, ?_, rfl, rfl, rfl, ?_, fun _ => rfl,
    rfl, Int.le_refl 0⟩
  · change (Dict.ofPairs _).lookup _ = _
    rw [Dict.ofPairs_of_nodup distinct, Dict.lookup_eq_some_iff_mem distinct]
    exact List.mem_map.mpr ⟨_, List.mem_of_getElem? seated, rfl⟩
  · simp [DriverState.holding, Table.startAgents, Table.start, Runs.spent]

variable {event : DriverEvent} {next : DriverState} {seat : Nat} {stack : Int}
  {player after : Player} {entry written : PlayerStats}

/-- One step of the driver, with the entry its pass writes. -/
theorem SeatTally.extend (tally : SeatTally table agentType events state seat stack player entry)
    (reached : Reached table state.driver)
    (ran : Runs.run driverStep table.start events = some state.driver)
    (taken : driverStep state.driver event = some next)
    (there : next.game.players[seat]? = some after)
    {handCount : Nat} {stats : List (String × PlayerStats)}
    (listed : stats.lookup (agentName (seat : Nat)) = some written)
    (agent : written.agentType = entry.agentType)
    (won : (written.handsWon : Int) = entry.handsWon + winsOf (seat : Nat) state.driver event)
    (winnings : written.totalWinnings =
      entry.totalWinnings + winningsOf (seat : Nat) state.driver event)
    (dealt : after.status ≠ .busted →
      Runs.spent driverStep (dealtTo (seat : Nat)) table.start events +
        dealtTo (seat : Nat) state.driver event = handCount)
    (counted : (written.handsPlayed : Int) =
      Runs.spent driverStep (dealtTo (seat : Nat)) table.start events +
        dealtTo (seat : Nat) state.driver event + if after.status = .busted then 1 else 0)
    (rate : (written.handsWon : Int) +
        (if next.stage = .inHand ∧ after.status ≠ .busted then 1 else 0) ≤
      Runs.spent driverStep (dealtTo (seat : Nat)) table.start events +
        dealtTo (seat : Nat) state.driver event) :
    SeatTally table agentType (events ++ [event]) ⟨handCount, stats, next⟩ seat stack after
      written := by
  have own : player.id = (seat : Nat) := reached.seated.id_eq tally.here
  have kept := reached.holding taken tally.here there
  rw [own] at kept
  have money := tally.money
  constructor
  · exact there
  · exact listed
  · rw [agent, tally.agent]
  · rw [Runs.spent_concat ran taken, won, tally.won]
  · rw [Runs.spent_concat ran taken, winnings, tally.winnings]
  · rw [Runs.spent_concat ran taken, winnings]
    change next.holding after + _ = _
    omega
  · rw [Runs.spent_concat ran taken]
    exact dealt
  · rw [Runs.spent_concat ran taken]
    exact counted
  · rw [Runs.spent_concat ran taken]
    exact rate

theorem seat_after (reached : Reached table state.driver)
    (taken : driverStep state.driver event = some next)
    (here : table.chips[seat]? = some stack) : ∃ after, next.game.players[seat]? = some after := by
  have inside := (List.getElem?_eq_some_iff.mp here).1
  rw [← (reached.step taken).seated.length] at inside
  exact ⟨_, List.getElem?_eq_getElem inside⟩

/-- A step within a hand leaves the statistics alone, and nothing they tell of changes. -/
theorem SeatTally.plays (tally : SeatTally table agentType events state seat stack player entry)
    (reached : Reached table state.driver)
    (ran : Runs.run driverStep table.start events = some state.driver)
    (stage : state.driver.stage = .inHand) (going : event ≠ .showdown)
    (taken : driverStep state.driver event = some next)
    (there : next.game.players[seat]? = some after) :
    SeatTally table agentType (events ++ [event]) ⟨state.handCount, state.stats, next⟩ seat stack
      after entry := by
  have busted := reached.busted_iff taken stage tally.here there
  have stays := (reached.stakes stage taken going).1
  have quiet : winsOf (seat : Nat) state.driver event = 0 ∧
      winningsOf (seat : Nat) state.driver event = 0 ∧
      dealtTo (seat : Nat) state.driver event = 0 := by
    cases event with
    | showdown => exact absurd rfl going
    | newHand shuffle =>
        have between := (driverStep_newHand taken).1
        rw [stage] at between
        cases between
    | skip => exact ⟨rfl, rfl, rfl⟩
    | decide decision => exact ⟨rfl, rfl, rfl⟩
    | nextPhase => exact ⟨rfl, rfl, rfl⟩
  obtain ⟨noWins, noWinnings, noCards⟩ := quiet
  have counted := tally.counted
  have rate := tally.rate
  apply tally.extend reached ran taken there tally.listed rfl
  · rw [noWins, Int.add_zero]
  · rw [noWinnings, Int.add_zero]
  · intro still
    rw [noCards, Int.add_zero]
    exact tally.dealt fun gone => still (busted.mpr gone)
  · rw [noCards, Int.add_zero, counted]
    simp only [busted]
  · rw [noCards, Int.add_zero]
    simpa only [stage, stays, ne_eq, busted] using rate

/-- A hand that opens counts for everybody who is not yet `BUSTED`, also for those whom it
makes so. -/
theorem SeatTally.opens {shuffle : Shuffle} {stats : List (String × PlayerStats)}
    (tally : SeatTally table agentType events state seat stack player entry)
    (reached : Reached table state.driver) (cleared : state.driver.game.Cleared)
    (ran : Runs.run driverStep table.start events = some state.driver)
    (entries : stats.lookup (agentName (seat : Nat)) =
      some (if player.status = .busted then entry
        else { entry with handsPlayed := state.handCount + 1 }))
    (taken : driverStep state.driver (.newHand shuffle) = some next)
    (there : next.game.players[seat]? = some after) :
    ∃ written, SeatTally table agentType (events ++ [.newHand shuffle])
      ⟨state.handCount + 1, stats, next⟩ seat stack after written := by
  have own : player.id = (seat : Nat) := reached.seated.id_eq tally.here
  have deals := reached.deals taken tally.here there
  rw [own] at deals
  obtain ⟨between, opened, _⟩ := reached.opened taken
  have counted := tally.counted
  have rate := tally.rate
  have dealt := tally.dealt
  rw [between] at rate
  -- who is out already has no chips, so the deal passes him by
  have gone : player.status = .busted → after.status = .busted := by
    intro out
    have none := cleared player (List.mem_of_getElem? tally.here) out
    obtain ⟨_, _, game, returned, rfl⟩ := driverStep_newHand taken
    have stays := (PokerGame.startNewHand_cleared reached.solvent returned).2 seat player.id
      (by rw [tally.here, ← none])
    rw [there] at stays
    rw [Option.some.inj stays]
    rfl
  refine ⟨_, tally.extend reached ran taken there entries ?_ ?_ ?_ ?_ ?_ ?_⟩
  · split <;> rfl
  · split <;> exact (Int.add_zero _).symm
  · split <;> exact (Int.add_zero _).symm
  · intro still
    have before : player.status ≠ .busted := fun out => still (gone out)
    rw [deals, if_neg still, dealt before]
    rfl
  · rw [deals]
    by_cases before : player.status = .busted
    · rw [if_pos before, if_pos (gone before), if_pos (gone before), counted, if_pos before]
      omega
    · have all := dealt before
      rw [if_neg before]
      dsimp only
      split <;> omega
  · rw [deals, opened]
    have same : ((if player.status = .busted then entry
        else { entry with handsPlayed := state.handCount + 1 }).handsWon : Int) =
          entry.handsWon := by
      split <;> rfl
    rw [same]
    simp only [reduceCtorEq, false_and, ↓reduceIte, Int.add_zero, true_and, ne_eq] at rate ⊢
    by_cases out : after.status = .busted <;> simp [out] <;> omega

theorem SeatTally.settles {stats : List (String × PlayerStats)}
    {settled : PokerGame × ShowdownResult}
    (tally : SeatTally table agentType events state seat stack player entry)
    (reached : Reached table state.driver)
    (ran : Runs.run driverStep table.start events = some state.driver)
    (stage : state.driver.stage = .inHand)
    (returned : state.driver.game.conductShowdown = .ok settled)
    (taken : driverStep state.driver .showdown = some ⟨.betweenHands, settled.1⟩)
    (entries : stats.lookup (agentName (seat : Nat)) =
      let own := settled.2.results.filter fun award => award.playerId == (seat : Int)
      some { entry with
        handsWon := entry.handsWon + own.length
        totalWinnings := entry.totalWinnings + (own.map Award.winnings).sum })
    (there : settled.1.players[seat]? = some after) :
    ∃ written, SeatTally table agentType (events ++ [.showdown])
      ⟨state.handCount, stats, ⟨.betweenHands, settled.1⟩⟩ seat stack after written := by
  have own : player.id = (seat : Nat) := reached.seated.id_eq tally.here
  have busted := reached.busted_iff taken stage tally.here there
  have few := awards_le reached.seated.distinct returned tally.here
  have awarded : awardsOf (seat : Nat) state.driver .showdown =
      settled.2.results.filter fun award => award.playerId == (seat : Int) := by
    unfold awardsOf
    rw [returned]
  have rate := tally.rate
  have dealt := tally.dealt
  have counted := tally.counted
  rw [stage] at rate
  rw [own] at few
  refine ⟨_, tally.extend reached ran taken there entries rfl ?_ ?_ ?_ ?_ ?_⟩
  · unfold winsOf
    rw [awarded]
    rfl
  · unfold winningsOf
    rw [awarded]
  · intro still
    change _ + 0 = _
    rw [Int.add_zero]
    exact dealt fun gone => still (busted.mpr gone)
  · change _ = _ + 0 + _
    rw [Int.add_zero]
    simpa only [busted] using counted
  · change _ ≤ _ + 0
    simp only [reduceCtorEq, false_and, ↓reduceIte, Int.add_zero, true_and, ne_eq] at rate ⊢
    by_cases out : player.status = .busted
    · rw [if_pos out] at few
      simp only [out, not_true_eq_false, ↓reduceIte] at rate
      omega
    · rw [if_neg out] at few
      simp only [out, not_false_eq_true, ↓reduceIte] at rate
      omega

theorem Reached.callStep (reached : Reached table state.driver)
    (taken : driverStep state.driver event = some next) :
    ∃ call, state.driver.game.callStep call = some next.game := by
  cases event with
  | newHand shuffle =>
      obtain ⟨_, _, game, returned, rfl⟩ := driverStep_newHand taken
      refine ⟨.startNewHand shuffle, ?_⟩
      simp only [PokerGame.callStep, PokerGame.perform, returned]
      rfl
  | skip =>
      obtain ⟨_, _, _, _, rfl⟩ := driverStep_skip taken
      exact ⟨.advanceToNextPlayer, rfl⟩
  | decide decision =>
      obtain ⟨_, _, _, player, action, amount, done, turn, performed, rfl, _⟩ :=
        reached.decided taken
      refine ⟨.processPlayerAction player.id action amount, ?_⟩
      simp only [PokerGame.callStep, PokerGame.perform,
        PokerGame.process_of_turn reached.seated turn, performed]
  | nextPhase =>
      obtain ⟨_, _, _, moved, returned, _⟩ := driverStep_nextPhase taken
      refine ⟨.advanceToNextPhase, ?_⟩
      simp only [PokerGame.callStep, PokerGame.perform, returned]
      rfl
  | showdown =>
      obtain ⟨_, _, result, returned, _⟩ := driverStep_showdown taken
      refine ⟨.conductShowdown, ?_⟩
      simp only [PokerGame.callStep, PokerGame.perform, returned]
      rfl

theorem Reached.cleared (reached : Reached table state.driver)
    (cleared : state.driver.game.Cleared)
    (taken : driverStep state.driver event = some next) : next.game.Cleared := by
  obtain ⟨call, called⟩ := reached.callStep taken
  have served : (state.driver.game.serve (.call call)).2 = next.game := by
    unfold PokerGame.callStep at called
    unfold PokerGame.serve
    dsimp only
    cases outcome : state.driver.game.perform call with
    | error raised =>
        rw [outcome] at called
        cases called
    | ok done =>
        rw [outcome] at called
        exact Option.some.inj called
  rw [← served]
  exact (PokerGame.serve_out reached.solvent reached.seated.distinct cleared _).1

theorem Tallied.entered (tallied : Tallied table agentType maxHands events state) (seat : Nat)
    (inside : seat < table.chips.length) :
    (state.stats.lookup (agentName (seat : Nat))).isSome := by
  obtain ⟨_, _, tally⟩ := tallied.seats seat _ (List.getElem?_eq_getElem inside)
  exact Option.isSome_of_eq_some tally.listed

/-- Every pass of the loop leaves it, extends the run and the tally, or raises where an agent
trips it. -/
theorem Tallied.pass (tallied : Tallied table agentType maxHands events state)
    (cleared : state.driver.game.Cleared) {chance : AgentChance}
    {result : Loops.Pass AgentState AgentFault}
    (kind : AgentPassKind maxHands chance state result) :
    result = .done state ∨
      (∃ after more, result = .next after ∧ after.driver.game.Cleared ∧
        Tallied table agentType maxHands more after) ∨
      (state.driver.stage = .inHand ∧ state.driver.game.trips chance = true) ∧
        ∃ fault, result = .raised fault := by
  have present := tallied.entered
  obtain ⟨banked, ran, opened, within, seats⟩ := tallied
  have reached := banked.underway.reached
  have extended : ∀ {event : DriverEvent} {next : DriverState},
      driverStep state.driver event = some next →
      Runs.run driverStep table.start (events ++ [event]) = some next := fun taken =>
    Runs.run_append.mpr ⟨_, ran, Runs.run_cons_eq_some.mpr ⟨_, taken, rfl⟩⟩
  have entered : ∀ {players : List Player},
      players.map Player.id = state.driver.game.players.map Player.id →
        Entered state.stats players := by
    intro players ids player member
    have known : player.id ∈ state.driver.game.players.map Player.id :=
      ids ▸ List.mem_map_of_mem member
    rw [reached.seated.ids] at known
    obtain ⟨seat, inside, same⟩ := List.mem_map.mp known
    rw [← same]
    exact present seat (List.mem_range.mp inside)
  cases kind with
  | left => exact Or.inl rfl
  | opens stats next stage more counted taken fits =>
      right
      left
      refine ⟨_, events ++ [.newHand chance.shuffle], rfl, reached.cleared cleared taken,
        banked.step taken fits, extended taken, ?_, more, ?_⟩
      · rw [List.countP_append, opened]
        rfl
      · intro seat stack here
        obtain ⟨player, entry, tally⟩ := seats seat stack here
        obtain ⟨after, there⟩ := seat_after reached taken here
        have own : player.id = (seat : Nat) := reached.seated.id_eq tally.here
        obtain ⟨same, again, entries⟩ := countHand_spec (state.handCount + 1) (entered rfl)
        rw [counted] at again
        cases again
        have written := entries (seat : Nat)
        rw [tally.listed, Option.map_some] at written
        have counts : (state.driver.game.players.any fun other =>
            other.id == (seat : Int) && other.status != .busted) = (player.status != .busted) := by
          rw [Bool.eq_iff_iff, List.any_eq_true]
          constructor
          · rintro ⟨other, member, both⟩
            rw [Bool.and_eq_true, beq_iff_eq, ← own] at both
            rw [← List.inj_on_of_nodup_map reached.seated.distinct member
              (List.mem_of_getElem? tally.here) both.1]
            exact both.2
          · intro still
            refine ⟨player, List.mem_of_getElem? tally.here, ?_⟩
            rw [own, beq_self_eq_true, still]
            rfl
        rw [counts] at written
        refine ⟨after, tally.opens reached cleared ran ?_ taken there⟩
        rw [written]
        by_cases out : player.status = .busted
        · simp [out]
        · simp [out]
  | plays event next stage going smooth taken fits =>
      right
      left
      refine ⟨_, events ++ [event], rfl, reached.cleared cleared taken, banked.step taken fits,
        extended taken, ?_, within, ?_⟩
      · have other : event.opensHand = false := by
          cases event with
          | newHand shuffle =>
              have between := (driverStep_newHand taken).1
              rw [stage] at between
              cases between
          | skip => rfl
          | decide decision => rfl
          | nextPhase => rfl
          | showdown => rfl
        rw [List.countP_append, opened, List.countP_singleton, other]
        rfl
      · intro seat stack here
        obtain ⟨player, entry, tally⟩ := seats seat stack here
        obtain ⟨after, there⟩ := seat_after reached taken here
        exact ⟨after, entry, tally.plays reached ran stage going taken there⟩
  | trips fault stage trips => exact Or.inr (Or.inr ⟨⟨stage, trips⟩, fault, rfl⟩)
  | settles stats settled stage smooth returned counted taken fits =>
      right
      left
      refine ⟨_, events ++ [.showdown], rfl, reached.cleared cleared taken, banked.step taken fits,
        extended taken, ?_, within, ?_⟩
      · rw [List.countP_append, opened]
        rfl
      · intro seat stack here
        obtain ⟨player, entry, tally⟩ := seats seat stack here
        obtain ⟨after, there⟩ := seat_after reached taken here
        obtain ⟨same, again, entries⟩ := countWins_spec settled.2.results
          (entered (PokerGame.conductShowdown_seats returned).1)
        rw [counted] at again
        cases again
        have later : Seated table settled.1 := (reached.step taken).seated
        have found : (settled.1.getPlayer (seat : Int)).isSome := by
          rw [← later.id_eq there, later.getPlayer there]
          rfl
        have written := entries (seat : Int) found
        rw [tally.listed, Option.map_some] at written
        obtain ⟨entry, next⟩ := tally.settles reached ran stage returned taken written there
        exact ⟨after, entry, next⟩

end Tally

/-- What the statistics tell after the events of a run. A player's wins and winnings are what
the showdowns have awarded him. His chips are what he brought and won less what he has bet. He
has played the hands that dealt him cards, and one more once he is `BUSTED`. -/
def AgentState.Exact (table : Table) (events : List DriverEvent) (state : AgentState) : Prop :=
  ∀ (seat : Nat) (stack : Int), table.chips[seat]? = some stack →
    ∃ player entry, state.driver.game.players[seat]? = some player ∧
      state.stats.lookup (agentName (seat : Nat)) = some entry ∧
      (entry.handsWon : Int) = Runs.spent driverStep (winsOf (seat : Nat)) table.start events ∧
      entry.totalWinnings =
        Runs.spent driverStep (winningsOf (seat : Nat)) table.start events ∧
      state.driver.holding player +
          Runs.spent driverStep (stakedBy (seat : Nat)) table.start events =
        stack + entry.totalWinnings ∧
      (entry.handsPlayed : Int) =
        Runs.spent driverStep (dealtTo (seat : Nat)) table.start events +
          (if player.status = .busted then 1 else 0) ∧
      entry.handsWon ≤ entry.handsPlayed

theorem Tallied.exact {table : Table} {agentType : Int → String} {maxHands : Nat}
    {events : List DriverEvent} {state : AgentState}
    (tallied : Tallied table agentType maxHands events state) : state.Exact table events := by
  intro seat stack here
  obtain ⟨player, entry, tally⟩ := tallied.seats seat stack here
  refine ⟨player, entry, tally.here, tally.listed, tally.won, tally.winnings, tally.money,
    tally.counted, ?_⟩
  have counted := tally.counted
  have rate := tally.rate
  split at counted <;> split at rate <;> omega

def Table.agentLoop (table : Table) (agentType : Int → String) (maxHands : Nat)
    (chance : Nat → AgentChance) (passes : Nat) : Loops.Pass AgentState AgentFault :=
  Loops.runFor (agentPass maxHands chance) passes 0 (table.startAgents agentType)

def AgentState.Tripped (state : AgentState) (chance : AgentChance) : Prop :=
  state.driver.stage = .inHand ∧ state.driver.game.trips chance = true

theorem AgentPassKind.raised_iff {maxHands : Nat} {chance : AgentChance} {state : AgentState}
    {result : Loops.Pass AgentState AgentFault} (kind : AgentPassKind maxHands chance state result) :
    (∃ fault, result = .raised fault) ↔ state.Tripped chance := by
  constructor
  · rintro ⟨fault, rfl⟩
    cases kind with
    | trips _ stage trips => exact ⟨stage, trips⟩
  · rintro ⟨stage, trips⟩
    cases kind with
    | left between _ =>
        rw [stage] at between
        cases between
    | opens _ _ between _ _ _ _ =>
        rw [stage] at between
        cases between
    | plays _ _ _ _ smooth _ _ =>
        rw [trips] at smooth
        cases smooth
    | settles _ _ _ smooth _ _ _ _ =>
        rw [trips] at smooth
        cases smooth
    | trips fault _ _ => exact ⟨fault, rfl⟩

section Loop

variable {table : Table} {agentType : Int → String} {maxHands : Nat} {chance : Nat → AgentChance}

def Counting (table : Table) (agentType : Int → String) (maxHands : Nat) (state : AgentState) :
    Prop :=
  state.driver.game.Cleared ∧ ∃ events, Tallied table agentType maxHands events state

theorem Counting.kind {state : AgentState} (counting : Counting table agentType maxHands state)
    (blinds : FitsColumn table.smallBlind ∧ FitsColumn table.bigBlind) (time : Nat) :
    AgentPassKind maxHands (chance time) state (agentPass maxHands chance time state) := by
  obtain ⟨_, _, tallied⟩ := counting
  exact agentPass_kind maxHands chance tallied.banked blinds tallied.entered time

theorem Table.agentLoop_outcome (small : table.chips.sum < 2 ^ 63)
    (blinds : FitsColumn table.smallBlind ∧ FitsColumn table.bigBlind) (passes : Nat) :
    (∃ final, table.agentLoop agentType maxHands chance passes = .done final ∧
        ∃ events, Tallied table agentType maxHands events final) ∨
      (∃ after, table.agentLoop agentType maxHands chance passes = .next after ∧
        Counting table agentType maxHands after) ∨
      ∃ before state, before < passes ∧
        table.agentLoop agentType maxHands chance before = .next state ∧
        Counting table agentType maxHands state ∧ state.Tripped (chance (0 + before)) ∧
        ∃ fault, table.agentLoop agentType maxHands chance passes = .raised fault := by
  have cleared : (table.startAgents agentType).driver.game.Cleared := by
    intro player member busted
    simp only [Table.startAgents, Table.start, Table.game, List.mem_mapIdx] at member
    obtain ⟨seat, inside, rfl⟩ := member
    cases busted
  refine Loops.runFor_outcome (Counting table agentType maxHands)
    (fun final => ∃ events, Tallied table agentType maxHands events final)
    (fun time state => state.Tripped (chance time)) ?_ passes
    ⟨cleared, [], Tallied.start table agentType maxHands small⟩
  intro time state counting
  have kind : AgentPassKind maxHands (chance time) state _ := counting.kind blinds time
  obtain ⟨cleared, events, tallied⟩ := counting
  rcases tallied.pass cleared kind with
    left | ⟨after, more, taken, still, next⟩ | tripped
  · exact Or.inl ⟨state, left, events, tallied⟩
  · exact Or.inr (Or.inl ⟨after, taken, still, more, next⟩)
  · exact Or.inr (Or.inr tripped)

end Loop

end Holdem
