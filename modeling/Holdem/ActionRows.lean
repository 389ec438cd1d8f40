import Holdem.Recording
import Holdem.Legality

set_option autoImplicit false

namespace Holdem

namespace PokerGame

/-- When the amount a caller passes is the number of chips the action moves: what there is to
call, in absolute value, for a call; the whole bet of a raise; the whole stack of an all-in. -/
def amountAgrees (game : PokerGame) (player : Player) (action : Action) (amount : Int) : Bool :=
  match action with
  | .call => amount == |game.currentBet - player.currentBet|
  | .raise => amount == max 0 (game.currentBet - player.currentBet + amount)
  | .allIn => amount == player.chips
  | _ => true

theorem recordedAmount_eq_paid_iff {game : PokerGame} {player : Player} {playerId amount : Int}
    {action : Action} {done : Performed} (solvent : 0 ≤ player.chips)
    (performed : game.performAction player playerId action amount = some done) :
    recordedAmount done action amount = done.paid ↔
      game.amountAgrees player action amount = true := by
  cases action <;> simp only [performAction] at performed
  case fold =>
    cases performed
    simp [recordedAmount, amountAgrees]
  case check =>
    split at performed <;> cases performed
    simp [recordedAmount, amountAgrees]
  case call =>
    simp only [recordedAmount, amountAgrees, beq_iff_eq]
    split at performed
    · rename_i nothing
      cases performed
      rw [abs_of_nonpos nothing]
      dsimp only
      omega
    · rename_i something
      split at performed <;> cases performed
      rename_i afford
      obtain ⟨paid, _, bet, _⟩ := player.bet_spec (game.currentBet - player.currentBet) solvent
      rw [abs_of_pos (by omega)]
      dsimp only at paid bet ⊢
      omega
  case raise =>
    simp only [recordedAmount, amountAgrees, beq_iff_eq]
    split at performed <;> cases performed
    rename_i afford
    obtain ⟨paid, _⟩ :=
      player.bet_spec (game.currentBet - player.currentBet + amount) solvent
    dsimp only
    omega
  case allIn =>
    simp only [recordedAmount, amountAgrees, beq_iff_eq]
    split at performed
    · cases performed
    · rename_i chips
      obtain ⟨paid, _⟩ := player.bet_spec player.chips solvent
      split at performed <;> cases performed <;> dsimp only <;> omega
  case unknown => cases performed

end PokerGame

/-- What the tables say of the hand in play: its id is set, and the last action row shows the
pot as it is. -/
structure PotRecorded (state : DriverState) : Prop where
  unused : state.game.currentHandId = none → state.game.db.actions = []
  started : state.stage = .inHand → state.game.currentHandId.isSome = true
  last : state.stage = .inHand → ∀ row, state.game.db.actions.getLast? = some row →
    row.potAfter = state.game.pot

namespace PotRecorded

variable {table : Table} {state next : DriverState}

theorem newHand (reached : Reached table state) (recorded : PotRecorded state)
    {shuffle : Shuffle} (taken : driverStep state (.newHand shuffle) = some next) :
    PotRecorded next := by
  obtain ⟨_, _, button, hand⟩ := reached.opened taken
  obtain ⟨_, _, opened, returned, same⟩ := driverStep_newHand taken
  subst same
  obtain ⟨small, big, smallPaid, bigPaid, row, _, _, actions, _, _, _, _, current, _⟩ :=
    PokerGame.startNewHand_db returned hand
  refine ⟨?_, ?_, ?_⟩
  · intro none
    rw [current] at none
    cases none
  · intro _
    rw [current]
    rfl
  · intro _ last found
    rw [actions] at found
    cases before : state.game.currentHandId with
    | none =>
        rw [before, recorded.unused before] at found
        cases found
    | some handId =>
        rw [before] at found
        simp only [Option.toList_some, List.flatMap_cons, List.flatMap_nil, List.append_nil,
          List.getLast?_append, List.getLast?_cons_cons, List.getLast?_singleton,
          Option.some_or, Option.some.injEq] at found
        rw [← found]

theorem step (reached : Reached table state) (recorded : PotRecorded state) {event : DriverEvent}
    (taken : driverStep state event = some next) : PotRecorded next := by
  cases event with
  | newHand shuffle => exact newHand reached recorded taken
  | skip =>
      obtain ⟨stage, _, _, _, rfl⟩ := driverStep_skip taken
      obtain ⟨db, current, pot⟩ := state.game.advance_db
      refine ⟨?_, ?_, ?_⟩
      · rw [db, current]
        exact recorded.unused
      · rw [current]
        exact fun _ => recorded.started stage
      · rw [db, pot]
        exact fun _ => recorded.last stage
  | decide decision =>
      obtain ⟨stage, _, _, player, action, amount, done, turn, performed, rfl, _⟩ :=
        reached.decided taken
      obtain ⟨actions, _, _, current, pot⟩ :=
        state.game.afterAction_db done player.id action amount
      obtain ⟨handId, known⟩ := Option.isSome_iff_exists.mp (recorded.started stage)
      refine ⟨?_, ?_, ?_⟩
      · intro none
        rw [current, known] at none
        cases none
      · intro _
        rw [current, known]
        rfl
      · intro _ last found
        rw [actions, known, Option.toList_some, List.map_singleton, List.getLast?_concat] at found
        cases found
        exact pot.symm
  | nextPhase =>
      obtain ⟨stage, _, _, moved, returned, _⟩ := driverStep_nextPhase taken
      obtain ⟨actions, _, _, current, pot⟩ :=
        PokerGame.nextPhase_db reached.solvent.served returned
      refine ⟨?_, ?_, ?_⟩
      · rw [actions, current]
        exact recorded.unused
      · rw [current]
        exact fun _ => recorded.started stage
      · rw [actions, pot]
        exact fun _ => recorded.last stage
  | showdown =>
      obtain ⟨_, _, result, returned, stage⟩ := driverStep_showdown taken
      obtain ⟨actions, current, _⟩ := PokerGame.conductShowdown_db returned
      refine ⟨?_, ?_, ?_⟩
      · rw [actions, current]
        exact recorded.unused
      · intro inHand
        rw [stage] at inHand
        cases inHand
      · intro inHand
        rw [stage] at inHand
        cases inHand

end PotRecorded

theorem Table.potRecorded (table : Table) {events : List DriverEvent} {state : DriverState}
    (played : Runs.run driverStep table.start events = some state) :
    Reached table state ∧ PotRecorded state :=
  Runs.run_invariant_always (fun state => Reached table state ∧ PotRecorded state)
    (fun _ _ _ holds taken => ⟨holds.1.step taken, PotRecorded.step holds.1 holds.2 taken⟩)
    ⟨table.reached_start, fun _ => rfl, nofun, nofun⟩ played

/-- What the row of an action should tell: the chips that left the player's stack, the pot
after it, and so the pot of the row before it in the hand plus its own amount. -/
structure TellsAction (state : DriverState) (next : PokerGame) (playerId : Int)
    (row : ActionRow) : Prop where
  amount : ∀ before after, state.game.getPlayer playerId = some before →
    next.getPlayer playerId = some after → row.amount = before.chips - after.chips
  pot : row.potAfter = next.pot
  chain : state.stage = .inHand → ∀ last, state.game.db.actions.getLast? = some last →
    row.potAfter = last.potAfter + row.amount

/-- In every state of a driver run, an accepted action under a hand's id writes one row, and
the row tells what the action did exactly when the caller's amount agrees with it. -/
theorem row_tells_action_iff (table : Table) (events : List DriverEvent) (state : DriverState)
    (played : Runs.run driverStep table.start events = some state) (playerId : Int)
    (action : Action) (amount : Int) (handId : Nat)
    (recording : state.game.currentHandId = some handId)
    (accepted : (state.game.processPlayerAction playerId action amount).1 = true) :
    ∃ player row, state.game.getPlayer playerId = some player ∧
      (state.game.processPlayerAction playerId action amount).2.db.actions =
        state.game.db.actions ++ [row] ∧
      (TellsAction state (state.game.processPlayerAction playerId action amount).2 playerId row ↔
        state.game.amountAgrees player action amount = true) := by
  obtain ⟨reached, recorded⟩ := table.potRecorded played
  rcases state.game.processPlayerAction_cases playerId action amount with rejected |
    ⟨seat, player, done, here, id, _, active, found, performed, written, moved⟩
  · rw [rejected] at accepted
    cases accepted
  have solvent := reached.solvent.chips player (List.mem_of_getElem? here)
  have pays := PokerGame.performAction_pays solvent performed
  have agrees := PokerGame.recordedAmount_eq_paid_iff solvent performed
  have shape : (state.game.processPlayerAction playerId action amount).2 =
      state.game.afterAction done playerId action amount := by rw [moved]; rfl
  obtain ⟨actions, _, _, _, pot⟩ := state.game.afterAction_db done playerId action amount
  rw [recording, Option.toList_some, List.map_singleton] at actions
  rw [shape]
  refine ⟨player, _, found, actions, ?_⟩
  have settled : (state.game.afterAction done playerId action amount).getPlayer playerId =
      some done.player := by
    obtain ⟨turn, complete, frame⟩ := state.game.afterAction_frame done playerId action amount
    have players : (state.game.afterAction done playerId action amount).players =
        state.game.players.set seat done.player := by
      rw [frame]
      exact written
    have seated : Seated table (state.game.afterAction done playerId action amount) := by
      refine reached.seated.congr ?_ (by rw [frame]; rfl) (by rw [frame]; rfl)
      rw [players]
      exact PokerGame.map_set_of_eq here pays.id
    have there : (state.game.afterAction done playerId action amount).players[seat]? =
        some done.player := by
      rw [players]
      exact List.getElem?_set_self (List.getElem?_eq_some_iff.mp here).1
    have known := seated.getPlayer there
    rwa [pays.id, id] at known
  constructor
  · intro tells
    rw [← agrees, ← show player.chips - done.player.chips = done.paid by rw [pays.chips]; omega]
    exact tells.amount player done.player found settled
  · intro agreed
    have exactly := agrees.mpr agreed
    refine ⟨?_, pot.symm, ?_⟩
    · intro before after was now
      rw [found] at was
      rw [settled] at now
      cases was
      cases now
      change PokerGame.recordedAmount done action amount = _
      rw [exactly, pays.chips]
      omega
    · intro stage last ended
      rw [recorded.last stage last ended]
      change state.game.pot + done.paid = state.game.pot + PokerGame.recordedAmount done action amount
      rw [exactly]

/-- The small blind of the first heads-up hand calls the 10 chips it lacks and passes the
amount 0, which is what the row then says. -/
theorem call_recorded_as_zero :
    ∃ state row, Runs.run driverStep headsUp.start [.newHand .unshuffled] = some state ∧
      state.game.currentPlayerIndex = 1 ∧
      (state.game.processPlayerAction 1 .call 0).1 = true ∧
      (state.game.processPlayerAction 1 .call 0).2.db.actions = state.game.db.actions ++ [row] ∧
      ¬ TellsAction state (state.game.processPlayerAction 1 .call 0).2 1 row := by
  refine ⟨_, _, rfl, rfl, rfl, rfl, ?_⟩
  intro tells
  exact absurd (tells.amount _ _ rfl rfl) (by decide)

/-- Passing the 10 chips there are to call makes the row right. -/
theorem row_tells_action_iff_call :
    ∃ state row, Runs.run driverStep headsUp.start [.newHand .unshuffled] = some state ∧
      (state.game.processPlayerAction 1 .call 10).2.db.actions = state.game.db.actions ++ [row] ∧
      TellsAction state (state.game.processPlayerAction 1 .call 10).2 1 row := by
  have reached : ∃ state player,
      Runs.run driverStep headsUp.start [.newHand .unshuffled] = some state ∧
      state.game.currentHandId = some 1 ∧
      (state.game.processPlayerAction 1 .call 10).1 = true ∧
      state.game.getPlayer 1 = some player ∧
      state.game.amountAgrees player .call 10 = true := ⟨_, _, rfl, rfl, rfl, rfl, rfl⟩
  obtain ⟨state, player, played, recording, accepted, found, agrees⟩ := reached
  obtain ⟨other, row, same, actions, exactly⟩ :=
    row_tells_action_iff headsUp _ state played 1 .call 10 1 recording accepted
  rw [found] at same
  cases same
  exact ⟨state, row, played, actions, exactly.mpr agrees⟩

end Holdem
