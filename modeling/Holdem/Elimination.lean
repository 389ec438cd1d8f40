import Holdem.StatusLaws
import Holdem.HistoryQueries

set_option autoImplicit false

/- Players who have lost all their chips. `reset_for_new_hand` makes them `BUSTED`, and no
request ever brings them back: not a showdown, not a blind, not the deal of a later hand. -/
namespace Holdem

/-- A player who is out of the game: nothing is left of him but his id. -/
def Player.eliminated (id : Int) : Player := { id := id, chips := 0, status := .busted }

namespace PokerGame

variable {game next : PokerGame}

/-- Whoever is `BUSTED` is out with everything he had. -/
def Cleared (game : PokerGame) : Prop :=
  ∀ player ∈ game.players, player.status = .busted → player = .eliminated player.id

/-- Whoever is out before is so after, on the same seat. -/
def OutStays (before after : PokerGame) : Prop :=
  ∀ (seat : Nat) (id : Int), before.players[seat]? = some (.eliminated id) →
    after.players[seat]? = some (.eliminated id)

theorem OutStays.same {before after : PokerGame} (players : after.players = before.players) :
    OutStays before after := by
  intro seat id here
  rw [players]
  exact here

theorem Cleared.same (cleared : game.Cleared) (players : next.players = game.players) :
    next.Cleared := by
  unfold Cleared
  rw [players]
  exact cleared

/-! ### A new hand -/

theorem reset_cleared {player : Player} (solvent : 0 ≤ player.chips)
    (busted : player.resetForNewHand.status = .busted) :
    player.resetForNewHand = .eliminated player.id := by
  have broke : ¬ 0 < player.chips := fun funded => (reset_status player).mpr funded busted
  have none : player.chips = 0 := by omega
  simp [Player.resetForNewHand, Player.eliminated, none]

theorem openSeat_eliminated {button small big seat : Nat} {player : Player}
    (none : player.chips = 0) (noButton : seat ≠ button) (noSmall : seat ≠ small)
    (noBig : seat ≠ big) :
    game.openSeat button small big seat player = .eliminated player.id := by
  unfold openSeat
  dsimp only
  rw [if_neg noBig, if_neg noSmall]
  simp [Player.resetForNewHand, Player.eliminated, none, noButton]

theorem opened_seat {button small big seat : Nat} {shuffle : Shuffle} {player : Player}
    (returned : game.startNewHand shuffle = .ok next)
    (hand : OpenedHand game button small big next) (there : game.players[seat]? = some player) :
    (player.chips = 0 → next.players[seat]? = some (.eliminated player.id)) ∧
      (0 < player.chips → ∀ after, next.players[seat]? = some after → after.status ≠ .busted) := by
  obtain ⟨cards, here⟩ := hand.opened seat
  rw [there, Option.map_some] at here
  constructor
  · intro none
    have apart : ∀ {other : Nat}, game.HasChips other → seat ≠ other := by
      rintro other ⟨holder, held, chips⟩ rfl
      rw [there] at held
      cases held
      omega
    rw [openSeat_eliminated none (apart hand.buttonAlive) (apart hand.smallAlive)
      (apart hand.bigAlive)] at here
    -- the deal leaves out a seat that is busted, so it has no cards either
    have count := (startNewHand_cards returned).2.2 (by rw [hand.phase]; decide) _
      (List.mem_of_getElem? here)
    have empty : cards = [] := List.length_eq_zero_iff.mp count
    rw [here, empty]
    rfl
  · intro chips after now busted
    rw [here] at now
    cases now
    have inPlay := openSeat_inPlay game button small big seat player (Or.inl chips)
    have alive : player.resetForNewHand.status ≠ .busted := (reset_status player).mpr chips
    have gone : (game.openSeat button small big seat player).status = .busted := busted
    rw [gone] at inPlay
    simp [alive] at inPlay

theorem startNewHand_cleared {shuffle : Shuffle} (solvent : Solvent game)
    (returned : game.startNewHand shuffle = .ok next) : next.Cleared ∧ OutStays game next := by
  rcases game.startNewHand_spec shuffle solvent.few with ⟨_, finished⟩ |
    ⟨button, opened, started, hand⟩
  · rw [returned] at finished
    cases finished
    constructor
    · intro player member busted
      obtain ⟨before, seated, rfl⟩ := List.mem_map.mp member
      exact reset_cleared (solvent.chips before seated) busted
    · intro seat id here
      have reset := resetForHand_getElem? game shuffle seat
      rw [here, Option.map_some] at reset
      exact reset
  · rw [returned] at started
    cases started
    constructor
    · intro player member busted
      obtain ⟨seat, here⟩ := List.mem_iff_getElem?.mp member
      obtain ⟨before, cards, there, _⟩ := hand.player_of_seat here
      obtain ⟨broke, funded⟩ := opened_seat returned hand there
      have nonneg := solvent.chips before (List.mem_of_getElem? there)
      by_cases chips : 0 < before.chips
      · exact absurd busted (funded chips player here)
      · have now := broke (by omega)
        rw [here] at now
        rw [Option.some.inj now]
        rfl
    · intro seat id here
      exact (opened_seat returned hand here).1 rfl

/-! ### A showdown -/

theorem creditAll_elsewhere {players : List Player} {items : List (Int × Int)} {seat : Nat}
    {player : Player} (here : players[seat]? = some player)
    (others : ∀ item ∈ items, item.1 ≠ player.id) :
    (creditAll players items)[seat]? = some player := by
  induction items generalizing players with
  | nil => exact here
  | cons item rest ih =>
      obtain ⟨first, later⟩ := List.forall_mem_cons.mp others
      refine ih ?_ later
      change (creditPlayer players item.1 item.2)[seat]? = some player
      unfold creditPlayer
      split
      · exact here
      · rename_i winner found
        obtain ⟨place, there, same, written⟩ := putPlayer_eq_set found
        rw [written { winner with chips := winner.chips + item.2 } rfl]
        have apart : place ≠ seat := by
          rintro rfl
          rw [here] at there
          cases there
          exact first same.symm
        rw [List.getElem?_set_ne apart, here]

theorem conductShowdown_outStays {result : ShowdownResult}
    (distinct : (game.players.map Player.id).Nodup)
    (returned : game.conductShowdown = .ok (next, result)) : OutStays game next := by
  unfold conductShowdown at returned
  split at returned
  · cases returned
    exact OutStays.same rfl
  · cases returned
    intro seat id here
    rw [List.getElem?_map, here, Option.map_some]
    rfl
  · rename_i first second rest listed
    split at returned
    · cases returned
    · rename_i hands evaluated
      cases returned
      have shown : hands.map PlayerHand.player = game.remainingPlayers := by
        rw [listed]
        exact evaluatePlayers_players evaluated
      have winners := (distributeLayers_spec (shown_lookup distinct shown)
        (buildPotLayers game.contributions)).2.2
      intro seat id here
      refine creditAll_elsewhere here ?_
      intro item member same
      have inMap := (List.perm_insertionSort _ _).mem_iff.mp member
      obtain ⟨winner, remains, own⟩ := List.mem_map.mp (winners item.1 (List.mem_map_of_mem inMap))
      obtain ⟨seated, status⟩ := List.mem_filter.mp remains
      have one := List.inj_on_of_nodup_map distinct seated (List.mem_of_getElem? here)
        (own.trans same)
      rw [one] at status
      cases status

theorem conductShowdown_cleared {result : ShowdownResult} (cleared : game.Cleared)
    (distinct : (game.players.map Player.id).Nodup)
    (returned : game.conductShowdown = .ok (next, result)) : next.Cleared := by
  have statuses := conductShowdown_map (f := Player.status) (fun _ _ => rfl) returned
  intro player member busted
  obtain ⟨seat, here⟩ := List.mem_iff_getElem?.mp member
  have same := congrArg (fun images => images[seat]?) statuses
  simp only [List.getElem?_map, here, Option.map_some] at same
  obtain ⟨before, there, status⟩ := Option.map_eq_some_iff.mp same.symm
  have out := cleared before (List.mem_of_getElem? there) (status.trans busted)
  have stays := conductShowdown_outStays distinct returned seat before.id (by rw [there, ← out])
  rw [here] at stays
  rw [Option.some.inj stays]
  rfl

/-! ### Requests -/

theorem serve_out (solvent : Solvent game) (distinct : (game.players.map Player.id).Nodup)
    (cleared : game.Cleared) (request : Request) :
    (game.serve request).2.Cleared ∧ OutStays game (game.serve request).2 := by
  rcases serve_cases solvent request with same | ⟨call, rfl, taken⟩
  · rw [same]
    exact ⟨cleared, OutStays.same rfl⟩
  · generalize (game.serve (.call call)).2 = next at taken
    cases call with
    | startNewHand shuffle => exact startNewHand_cleared solvent (callStep_newHand taken)
    | processPlayerAction playerId action amount =>
        cases taken
        rcases game.processPlayerAction_cases playerId action amount with rejected |
          ⟨seat, player, done, here, _, _, active, _, performed, written, accepted⟩
        · rw [rejected]
          exact ⟨cleared, OutStays.same rfl⟩
        · obtain ⟨turn, complete, frame⟩ :=
            advance_check_frame (game.commitAction done playerId action amount)
          have players : (game.processPlayerAction playerId action amount).2.players =
              game.players.set seat done.player := by
            rw [accepted, frame]
            exact written
          constructor
          · unfold Cleared
            rw [players]
            intro other member busted
            rcases List.mem_or_eq_of_mem_set member with before | acted
            · exact cleared other before busted
            · rw [acted] at busted
              exact absurd busted (performAction_notBusted active performed)
          · intro place id out
            have apart : seat ≠ place := by
              rintro rfl
              rw [out] at here
              cases here
              cases active
            rw [players, List.getElem?_set_ne apart, out]
    | advanceToNextPlayer =>
        cases taken
        obtain ⟨seat, complete, frame⟩ := game.advance_frame
        rw [frame]
        exact ⟨cleared, OutStays.same rfl⟩
    | advanceToNextPhase =>
        obtain ⟨moved, returned⟩ := callStep_nextPhase taken
        rcases advanceToNextPhase_frame solvent.served returned with ⟨phase, rfl⟩ |
          ⟨phase, count, describe, seat, complete, rfl⟩
        · exact ⟨cleared, OutStays.same rfl⟩
        · constructor
          · intro player member busted
            obtain ⟨before, seated, rfl⟩ := List.mem_map.mp member
            have out := cleared before seated busted
            rw [out]
            rfl
          · intro place id here
            change (game.players.map _)[place]? = _
            rw [List.getElem?_map, here]
            rfl
    | conductShowdown =>
        obtain ⟨result, returned⟩ := callStep_showdown taken
        exact ⟨conductShowdown_cleared cleared distinct returned,
          conductShowdown_outStays distinct returned⟩

theorem afterAll_out (solvent : Solvent game) (distinct : (game.players.map Player.id).Nodup)
    (cleared : game.Cleared) (requests : List Request) :
    (game.afterAll requests).Cleared ∧ OutStays game (game.afterAll requests) := by
  have kept : (Solvent (game.afterAll requests) ∧
      (game.afterAll requests).players.map Player.id = game.players.map Player.id) ∧
      (game.afterAll requests).Cleared ∧ OutStays game (game.afterAll requests) := by
    apply Runs.run_invariant_always
      (fun state => (Solvent state ∧ state.players.map Player.id = game.players.map Player.id) ∧
        state.Cleared ∧ OutStays game state)
      ?_ ⟨⟨solvent, rfl⟩, cleared, OutStays.same rfl⟩ (run_serveStep game requests)
    rintro state request next ⟨⟨still, ids⟩, clear, out⟩ taken
    cases taken
    obtain ⟨clearToo, outToo⟩ := serve_out still (by rwa [ids]) clear request
    exact ⟨⟨serve_solvent still request, (serve_ids still request).trans ids⟩, clearToo,
      fun seat id here => outToo seat id (out seat id here)⟩
  exact kept.2

/-! ### What follows for those who are out -/

theorem out_refused {seat : Nat} {id : Int} (distinct : (game.players.map Player.id).Nodup)
    (out : game.players[seat]? = some (.eliminated id)) (action : Action) (amount : Int) :
    game.processPlayerAction id action amount = (false, game) := by
  rcases game.processPlayerAction_cases id action amount with rejected |
    ⟨place, player, done, here, own, _, active, _⟩
  · exact rejected
  · have same := List.inj_on_of_nodup_map distinct (List.mem_of_getElem? here)
      (List.mem_of_getElem? out) own
    rw [same] at active
    cases active

theorem out_unseeing {seat : Nat} {id : Int} (distinct : (game.players.map Player.id).Nodup)
    (out : game.players[seat]? = some (.eliminated id)) :
    ∃ raised, game.getLlmGameState id = .error raised := by
  have found := getPlayer_of_mem distinct (List.mem_of_getElem? out)
  unfold getLlmGameState
  rw [show game.getPlayer id = some (.eliminated id) from found]
  exact ⟨_, rfl⟩

/-- A hand that opens gives neither the button nor the first turn to someone who is out. -/
theorem out_passed_over {seat : Nat} {id : Int} {shuffle : Shuffle} (solvent : Solvent game)
    (out : game.players[seat]? = some (.eliminated id))
    (returned : game.startNewHand shuffle = .ok next) (opened : next.currentPhase ≠ .finished) :
    next.dealerButton ≠ seat ∧ next.currentPlayerIndex ≠ seat := by
  have broke : ∀ {other : Nat}, game.HasChips other → other ≠ seat := by
    rintro other ⟨holder, held, chips⟩ rfl
    rw [out] at held
    cases held
    exact absurd chips (Int.lt_irrefl 0)
  rcases game.startNewHand_spec shuffle solvent.few with ⟨_, finished⟩ |
    ⟨button, state, started, hand⟩
  · rw [returned] at finished
    cases finished
    exact absurd rfl opened
  · rw [returned] at started
    cases started
    rw [hand.dealer]
    exact ⟨broke hand.buttonAlive, broke hand.turnAlive⟩

theorem survivors_le (cleared : game.Cleared) (out : OutStays game next)
    (length : next.players.length = game.players.length) :
    next.survivorSeats.length ≤ game.survivorSeats.length := by
  unfold survivorSeats seatsWhere
  rw [length]
  refine List.Sublist.length_le (List.monotone_filter_right _ ?_)
  intro seat alive
  cases here : game.players[seat]? with
  | none =>
      rw [List.getElem?_eq_none_iff, ← length, ← List.getElem?_eq_none_iff] at here
      rw [here] at alive
      cases alive
  | some player =>
      rw [Option.any_some, bne_iff_ne]
      intro busted
      have gone := cleared player (List.mem_of_getElem? here) busted
      rw [out seat player.id (by rw [here, ← gone])] at alive
      cases alive

theorem startNewHand_finished {shuffle : Shuffle} (solvent : Solvent game)
    (cleared : game.Cleared) (few : game.survivorSeats.length < 2)
    (returned : game.startNewHand shuffle = .ok next) :
    next = { game.resetForHand shuffle with currentPhase := .finished } := by
  rcases game.startNewHand_spec shuffle solvent.few with ⟨_, finished⟩ |
    ⟨button, state, started, hand⟩
  · rw [returned] at finished
    exact Except.ok.inj finished
  · have survives : ∀ {seat : Nat}, game.HasChips seat → seat ∈ game.survivorSeats := by
      rintro seat ⟨player, here, chips⟩
      rw [mem_survivorSeats]
      refine ⟨player, here, fun busted => ?_⟩
      rw [cleared player (List.mem_of_getElem? here) busted] at chips
      exact Int.lt_irrefl 0 chips
    have small := survives hand.smallAlive
    have big := survives hand.bigAlive
    have pair : [(game.readyForBlinds shuffle).blindSeats.1,
        (game.readyForBlinds shuffle).blindSeats.2].Nodup := by
      simpa using hand.apart
    have both : [(game.readyForBlinds shuffle).blindSeats.1,
        (game.readyForBlinds shuffle).blindSeats.2].Subperm game.survivorSeats :=
      pair.subperm fun seat member => by
        rcases List.mem_pair.mp member with rfl | rfl
        · exact small
        · exact big
    have two := both.length_le
    simp only [List.length_cons, List.length_nil] at two
    omega

theorem serve_closed (solvent : Solvent game) (cleared : game.Cleared)
    (few : game.survivorSeats.length < 2) (request : Request) :
    (game.serve request).2.currentHandId = game.currentHandId ∧
      (game.serve request).2.db.hands.length = game.db.hands.length := by
  rcases serve_cases solvent request with same | ⟨call, rfl, taken⟩
  · rw [same]
    exact ⟨rfl, rfl⟩
  · generalize (game.serve (.call call)).2 = next at taken
    have silent : Writes game next → next.currentHandId = game.currentHandId ∧
        next.db.hands.length = game.db.hands.length := by
      rintro ⟨same, writes, _, tables⟩
      refine ⟨same, ?_⟩
      rw [tables]
      exact GameHistoryDB.writes_length writes game.db
    rcases callStep_writes taken with written | ⟨middle, small, big, dealer, playerIds, _⟩
    · exact silent written
    · cases call with
      | startNewHand shuffle =>
          rw [startNewHand_finished solvent cleared few (callStep_newHand taken)]
          exact ⟨rfl, rfl⟩
      | processPlayerAction playerId action amount =>
          cases taken
          exact silent (game.process_writes playerId action amount)
      | advanceToNextPlayer =>
          cases taken
          exact silent game.advance_writes
      | advanceToNextPhase =>
          obtain ⟨_, returned⟩ := callStep_nextPhase taken
          exact silent (nextPhase_writes returned)
      | conductShowdown =>
          obtain ⟨_, returned⟩ := callStep_showdown taken
          exact silent (showdown_writes returned)

theorem afterAll_closed (solvent : Solvent game) (distinct : (game.players.map Player.id).Nodup)
    (cleared : game.Cleared) (few : game.survivorSeats.length < 2) (requests : List Request) :
    (game.afterAll requests).currentHandId = game.currentHandId ∧
      (game.afterAll requests).db.hands.length = game.db.hands.length := by
  induction requests generalizing game with
  | nil => exact ⟨rfl, rfl⟩
  | cons request rest ih =>
      obtain ⟨clear, out⟩ := serve_out solvent distinct cleared request
      have ids := serve_ids solvent request
      have length : (game.serve request).2.players.length = game.players.length := by
        simpa using congrArg List.length ids
      have fewer := survivors_le cleared out length
      obtain ⟨sameId, sameSize⟩ := serve_closed solvent cleared few request
      obtain ⟨laterId, laterSize⟩ := ih (serve_solvent solvent request) (by rwa [ids]) clear
        (by omega)
      exact ⟨laterId.trans sameId, laterSize.trans sameSize⟩

end PokerGame

def Setup.opened (setup : Setup) (earlier : List Request) (shuffle : Shuffle) : PokerGame :=
  ((setup.game.afterAll earlier).serve (.call (.startNewHand shuffle))).2

theorem Setup.opened_cleared (setup : Setup) (earlier : List Request) (shuffle : Shuffle) :
    Solvent (setup.opened earlier shuffle) ∧
      ((setup.opened earlier shuffle).players.map Player.id).Nodup ∧
      (setup.opened earlier shuffle).Cleared := by
  obtain ⟨solvent, ids⟩ := PokerGame.afterAll_solvent setup.solvent_game earlier
  refine ⟨PokerGame.serve_solvent solvent _, ?_, ?_⟩
  · rw [Setup.opened, PokerGame.serve_ids solvent, ids]
    exact setup.distinct
  · obtain ⟨next, returned⟩ :=
      (setup.game.afterAll earlier).startNewHand_returns shuffle solvent.few
    have after : setup.opened earlier shuffle = next := by
      unfold Setup.opened PokerGame.serve
      dsimp only [PokerGame.perform]
      rw [returned]
      rfl
    rw [after]
    exact (PokerGame.startNewHand_cleared solvent returned).1

/-- Whoever is `BUSTED` once a hand has started stays out for good, whatever requests come in
whatever order: his seat keeps no chips, cards, bets or marks, he can neither act nor look, and
no later hand gives him the button or the first turn. When fewer than two are left no hand is
ever opened again. -/
theorem eliminated_for_good (setup : Setup) (earlier : List Request) (shuffle : Shuffle)
    (first second : List Request) :
    let middle := (setup.opened earlier shuffle).afterAll first
    let final := middle.afterAll second
    (∀ (seat : Nat) (player : Player), middle.players[seat]? = some player →
      player.status = .busted →
        final.players[seat]? = some (.eliminated player.id) ∧
        (∀ action amount, final.processPlayerAction player.id action amount = (false, final)) ∧
        (∃ raised, final.getLlmGameState player.id = .error raised) ∧
        ∀ shuffle next, final.startNewHand shuffle = .ok next → next.currentPhase ≠ .finished →
          next.dealerButton ≠ seat ∧ next.currentPlayerIndex ≠ seat) ∧
      final.survivorSeats.length ≤ middle.survivorSeats.length ∧
      (middle.survivorSeats.length < 2 →
        final.currentHandId = middle.currentHandId ∧
        final.db.hands.length = middle.db.hands.length ∧
        ∀ shuffle next, final.startNewHand shuffle = .ok next →
          next = { final.resetForHand shuffle with currentPhase := .finished }) := by
  intro middle final
  obtain ⟨solvent, distinct, cleared⟩ := setup.opened_cleared earlier shuffle
  obtain ⟨solventThen, idsThen⟩ := PokerGame.afterAll_solvent solvent first
  obtain ⟨clearedThen, _⟩ := PokerGame.afterAll_out solvent distinct cleared first
  have distinctThen : (middle.players.map Player.id).Nodup := by
    rw [show middle.players.map Player.id = _ from idsThen]
    exact distinct
  obtain ⟨solventNow, idsNow⟩ := PokerGame.afterAll_solvent solventThen second
  obtain ⟨clearedNow, out⟩ := PokerGame.afterAll_out solventThen distinctThen clearedThen second
  have distinctNow : (final.players.map Player.id).Nodup := by
    rw [show final.players.map Player.id = _ from idsNow]
    exact distinctThen
  have length : final.players.length = middle.players.length := by
    simpa using congrArg List.length idsNow
  have fewer := PokerGame.survivors_le clearedThen out length
  refine ⟨?_, fewer, ?_⟩
  · intro seat player here busted
    have gone := clearedThen player (List.mem_of_getElem? here) busted
    have stays := out seat player.id (by rw [here, ← gone])
    exact ⟨stays, PokerGame.out_refused distinctNow stays,
      PokerGame.out_unseeing distinctNow stays,
      fun shuffle next returned opened => PokerGame.out_passed_over solventNow stays returned opened⟩
  · intro few
    obtain ⟨sameId, sameSize⟩ :=
      PokerGame.afterAll_closed solventThen distinctThen clearedThen few second
    exact ⟨sameId, sameSize, fun shuffle next returned =>
      PokerGame.startNewHand_finished solventNow clearedNow (Nat.lt_of_le_of_lt fewer few) returned⟩

def oneBroke : Setup where
  smallBlind := 5
  bigBlind := 10
  players := [{ id := 0, chips := 100 }, { id := 1, chips := 0 }, { id := 2, chips := 60 }]
  button := 0
  seats := by decide
  distinct := by decide
  solvent := by decide
  blinds := by decide

def twoHands : List Request :=
  [.call (.processPlayerAction 2 .fold 0), .call .advanceToNextPhase, .call .conductShowdown,
    .call (.startNewHand .unshuffled), .call (.processPlayerAction 0 .allIn 0),
    .call (.processPlayerAction 2 .allIn 0), .call .advanceToNextPhase, .getLlmGameState 1]

theorem eliminated_for_good_one_broke :
    (((oneBroke.opened [] .unshuffled).afterAll []).afterAll twoHands).players[1]? =
      some (.eliminated 1) := by
  have gone : ∃ player, ((oneBroke.opened [] .unshuffled).afterAll []).players[1]? = some player ∧
      player.status = .busted ∧ player.id = 1 := ⟨_, rfl, rfl, rfl⟩
  obtain ⟨player, here, busted, own⟩ := gone
  have stays := ((eliminated_for_good oneBroke [] .unshuffled [] twoHands).1 1 player here busted).1
  rw [own] at stays
  exact stays

end Holdem
