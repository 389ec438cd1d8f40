import Holdem.Recording
import Holdem.Legality

set_option autoImplicit false

namespace Holdem

/-- A blind posted or an action taken, with the number of the hand it belongs to. -/
structure Deed where
  hand : Nat
  phase : String
  playerId : Int
  kind : String
deriving DecidableEq, Repr

/-- The deed a row of `actions` reports. -/
def ActionRow.deed (row : ActionRow) : Deed := ⟨row.handId, row.phase, row.playerId, row.actionType⟩

def Deed.isBlind (deed : Deed) : Bool := deed.kind == "small_blind" || deed.kind == "big_blind"

/-- The driver with a ledger of what happened at the table, hand by hand. The number of a hand
is the one `db.start_new_hand` gave it. -/
structure LedgerState where
  state : DriverState
  hand : Nat
  deeds : List Deed

/-- The posts of the players marked as blinds in a hand that was just opened. -/
def PokerGame.blindDeeds (game : PokerGame) (hand : Nat) : List Deed :=
  ((game.players.find? fun player => player.isSmallBlind).toList.map fun player =>
      ⟨hand, "preflop", player.id, "small_blind"⟩) ++
    (game.players.find? fun player => player.isBigBlind).toList.map fun player =>
      ⟨hand, "preflop", player.id, "big_blind"⟩

/-- The action that is accepted for a decision: the decision's own, or the fold that replaces
it. -/
def PokerGame.acceptedAction (game : PokerGame) (playerId : Int) (decision : Decision) : Action :=
  if (game.processPlayerAction playerId decision.action decision.amount).1 then decision.action
  else .fold

/-- One step of the driver, entered in the ledger. -/
def ledgerStep (tracked : LedgerState) (event : DriverEvent) : Option LedgerState :=
  (driverStep tracked.state event).map fun next =>
    match event with
    | .newHand _ =>
        let hand := next.game.db.hands.length
        ⟨next, hand, tracked.deeds ++ next.game.blindDeeds hand⟩
    | .decide decision =>
        ⟨next, tracked.hand, tracked.deeds ++
          (tracked.state.game.players[tracked.state.game.currentPlayerIndex]?).toList.map fun player =>
            ⟨tracked.hand, tracked.state.game.currentPhase.value, player.id,
              (tracked.state.game.acceptedAction player.id decision).text⟩⟩
    | _ => ⟨next, tracked.hand, tracked.deeds⟩

def Table.startLedger (table : Table) : LedgerState := ⟨table.start, 0, []⟩

def DriverEvent.opensHand : DriverEvent → Bool
  | .newHand _ => true
  | _ => false

/-- Under every hand's id the table of actions holds the deeds of that hand, in order. -/
def LedgerState.Filed (tracked : LedgerState) : Prop :=
  ∀ hand, (tracked.state.game.db.actions.filter fun row => row.handId == hand).map ActionRow.deed =
    tracked.deeds.filter fun deed => deed.hand == hand

/-- Where a deed really ends up: a blind under the hand before its own, if there is one. -/
def Deed.filedAs (deed : Deed) : Option Deed :=
  if deed.isBlind then
    if deed.hand ≤ 1 then none else some { deed with hand := deed.hand - 1 }
  else some deed

/-- The table of actions as the ledger determines it. -/
structure Misfiled (tracked : LedgerState) : Prop where
  number : tracked.hand = tracked.state.game.db.hands.length
  current : tracked.state.game.currentHandId = if tracked.hand = 0 then none else some tracked.hand
  playing : tracked.state.stage = .inHand → tracked.hand ≠ 0
  bounded : ∀ deed ∈ tracked.deeds, deed.hand ≤ tracked.hand
  posted : tracked.hand ≠ 0 → ∃ deed ∈ tracked.deeds, deed.hand = tracked.hand ∧ deed.isBlind = true
  rows : tracked.state.game.db.actions.map ActionRow.deed = tracked.deeds.filterMap Deed.filedAs

theorem performed_not_blind {game : PokerGame} {player : Player} {playerId amount : Int}
    {action : Action} {done : Performed}
    (performed : game.performAction player playerId action amount = some done) :
    action.text ≠ "small_blind" ∧ action.text ≠ "big_blind" := by
  cases action with
  | unknown text => cases performed
  | _ => exact ⟨by decide, by decide⟩

theorem acceptedAction_eq {table : Table} {game : PokerGame} {player : Player}
    (seated : Seated table game) (turn : game.Turn player) {decision : Decision} {action : Action}
    {amount : Int} {done : Performed}
    (performed : game.performAction player player.id action amount = some done)
    (which : (action = decision.action ∧ amount = decision.amount) ∨
      (action = .fold ∧
        game.performAction player player.id decision.action decision.amount = none)) :
    game.acceptedAction player.id decision = action := by
  unfold PokerGame.acceptedAction
  rw [PokerGame.process_of_turn seated turn]
  rcases which with ⟨rfl, rfl⟩ | ⟨rfl, rejected⟩
  · rw [performed]
    rfl
  · rw [rejected]
    rfl

namespace Misfiled

variable {table : Table} {tracked : LedgerState} {next : DriverState}

theorem newHand (misfiled : Misfiled tracked) (reached : Reached table tracked.state)
    {shuffle : Shuffle} (taken : driverStep tracked.state (.newHand shuffle) = some next) :
    Misfiled ⟨next, next.game.db.hands.length,
      tracked.deeds ++ next.game.blindDeeds next.game.db.hands.length⟩ := by
  obtain ⟨_, _, button, hand⟩ := reached.opened taken
  obtain ⟨_, _, opened, returned, same⟩ := driverStep_newHand taken
  subst same
  obtain ⟨small, big, smallPaid, bigPaid, row, smallFound, bigFound, actions, hands, _, number, _,
    current, _⟩ := PokerGame.startNewHand_db returned hand
  have count : opened.db.hands.length = tracked.hand + 1 := by
    rw [hands, List.length_append, List.length_singleton, misfiled.number]
  have posts : opened.blindDeeds opened.db.hands.length =
      [⟨tracked.hand + 1, "preflop", small.id, "small_blind"⟩,
        ⟨tracked.hand + 1, "preflop", big.id, "big_blind"⟩] := by
    simp only [PokerGame.blindDeeds, smallFound, bigFound, count]
    rfl
  refine ⟨rfl, ?_, ?_, ?_, ?_, ?_⟩
  · dsimp only
    rw [if_neg (by omega), current, number, count, misfiled.number]
  · intro _
    dsimp only
    omega
  · intro deed member
    dsimp only at member ⊢
    rw [posts, List.mem_append] at member
    rw [count]
    rcases member with old | new
    · have := misfiled.bounded deed old
      omega
    · simp only [List.mem_cons, List.not_mem_nil, or_false] at new
      rcases new with rfl | rfl <;> exact Nat.le_refl _
  · intro _
    dsimp only
    rw [posts, count]
    exact ⟨⟨tracked.hand + 1, "preflop", small.id, "small_blind"⟩, by simp, rfl, rfl⟩
  · dsimp only
    rw [actions, posts, List.map_append, List.filterMap_append, misfiled.rows, misfiled.current]
    congr 1
    by_cases first : tracked.hand = 0
    · simp [first, Deed.filedAs, Deed.isBlind]
    · rw [if_neg first]
      simp [ActionRow.deed, Deed.filedAs, Deed.isBlind, first]

theorem decided (misfiled : Misfiled tracked) (reached : Reached table tracked.state)
    {decision : Decision} (taken : driverStep tracked.state (.decide decision) = some next) :
    Misfiled ⟨next, tracked.hand, tracked.deeds ++
      (tracked.state.game.players[tracked.state.game.currentPlayerIndex]?).toList.map fun player =>
        ⟨tracked.hand, tracked.state.game.currentPhase.value, player.id,
          (tracked.state.game.acceptedAction player.id decision).text⟩⟩ := by
  obtain ⟨stage, _, _, player, action, amount, done, turn, performed, rfl, which⟩ :=
    reached.decided taken
  obtain ⟨actions, hands, _, current, _⟩ :=
    tracked.state.game.afterAction_db done player.id action amount
  have started := misfiled.playing stage
  have entered := acceptedAction_eq reached.seated turn performed which
  rw [turn.here]
  simp only [Option.toList_some, List.map_singleton, entered]
  refine ⟨?_, ?_, fun _ => started, ?_, ?_, ?_⟩
  · dsimp only
    rw [hands]
    exact misfiled.number
  · dsimp only
    rw [current]
    exact misfiled.current
  · intro deed member
    rcases List.mem_append.mp member with old | new
    · exact misfiled.bounded deed old
    · rw [List.mem_singleton] at new
      rw [new]
  · intro _
    obtain ⟨deed, member, same, blind⟩ := misfiled.posted started
    exact ⟨deed, List.mem_append_left _ member, same, blind⟩
  · obtain ⟨notSmall, notBig⟩ := performed_not_blind performed
    dsimp only
    rw [actions, misfiled.current, if_neg started, List.map_append, List.filterMap_append,
      misfiled.rows]
    congr 1
    simp [ActionRow.deed, PokerGame.actionRow, Deed.filedAs, Deed.isBlind, notSmall, notBig]

/-- A step that writes neither actions nor hands leaves the ledger in agreement. -/
theorem quiet (misfiled : Misfiled tracked) (stage : tracked.state.stage = .inHand)
    (actions : next.game.db.actions = tracked.state.game.db.actions)
    (hands : next.game.db.hands.length = tracked.state.game.db.hands.length)
    (current : next.game.currentHandId = tracked.state.game.currentHandId) :
    Misfiled ⟨next, tracked.hand, tracked.deeds⟩ := by
  refine ⟨?_, ?_, fun _ => misfiled.playing stage, misfiled.bounded, misfiled.posted, ?_⟩
  · dsimp only
    rw [hands]
    exact misfiled.number
  · dsimp only
    rw [current]
    exact misfiled.current
  · dsimp only
    rw [actions]
    exact misfiled.rows

theorem step {after : LedgerState} {event : DriverEvent} (misfiled : Misfiled tracked)
    (reached : Reached table tracked.state) (taken : ledgerStep tracked event = some after) :
    Misfiled after ∧ Reached table after.state := by
  obtain ⟨next, moved, rfl⟩ := Option.map_eq_some_iff.mp taken
  have kept := reached.step moved
  cases event with
  | newHand shuffle => exact ⟨misfiled.newHand reached moved, kept⟩
  | decide decision => exact ⟨misfiled.decided reached moved, kept⟩
  | skip =>
      obtain ⟨stage, _, _, _, rfl⟩ := driverStep_skip moved
      obtain ⟨db, current, _⟩ := tracked.state.game.advance_db
      exact ⟨misfiled.quiet stage (by rw [db]) (by rw [db]) current, kept⟩
  | nextPhase =>
      obtain ⟨stage, _, _, _, returned, _⟩ := driverStep_nextPhase moved
      obtain ⟨actions, hands, _, current, _⟩ :=
        PokerGame.nextPhase_db reached.solvent.served returned
      exact ⟨misfiled.quiet stage actions (by rw [hands]) current, kept⟩
  | showdown =>
      obtain ⟨stage, _, result, returned, _⟩ := driverStep_showdown moved
      obtain ⟨actions, current, _⟩ := PokerGame.conductShowdown_db returned
      exact ⟨misfiled.quiet stage actions (PokerGame.conductShowdown_hands returned) current, kept⟩

/-- The last hand opened has no blind among its rows, though two were posted in it. -/
theorem not_filed (misfiled : Misfiled tracked) (opened : tracked.hand ≠ 0) : ¬ tracked.Filed := by
  intro filed
  obtain ⟨deed, member, same, blind⟩ := misfiled.posted opened
  have listed : deed ∈ tracked.deeds.filter fun deed => deed.hand == tracked.hand :=
    List.mem_filter.mpr ⟨member, by simp [same]⟩
  rw [← filed tracked.hand] at listed
  obtain ⟨row, inside, rfl⟩ := List.mem_map.mp listed
  have stored : row.deed ∈ tracked.state.game.db.actions.map ActionRow.deed :=
    List.mem_map_of_mem (List.mem_filter.mp inside).1
  rw [misfiled.rows, List.mem_filterMap] at stored
  obtain ⟨origin, known, filedAs⟩ := stored
  have bound := misfiled.bounded origin known
  unfold Deed.filedAs at filedAs
  split at filedAs
  · split at filedAs
    · cases filedAs
    · rw [Option.some.injEq] at filedAs
      rw [← filedAs] at same
      dsimp only at same
      omega
  · rename_i notBlind
    cases filedAs
    exact notBlind blind

theorem initial (table : Table) : Misfiled table.startLedger := by
  refine ⟨rfl, rfl, ?_, ?_, ?_, rfl⟩
  · intro stage
    cases stage
  · intro deed member
    cases member
  · intro opened
    exact absurd rfl opened

theorem step_hand {after : LedgerState} {event : DriverEvent} (misfiled : Misfiled tracked)
    (reached : Reached table tracked.state) (taken : ledgerStep tracked event = some after) :
    after.hand = tracked.hand + if event.opensHand then 1 else 0 := by
  obtain ⟨next, moved, rfl⟩ := Option.map_eq_some_iff.mp taken
  cases event with
  | newHand shuffle =>
      obtain ⟨_, _, button, hand⟩ := reached.opened moved
      obtain ⟨_, _, opened, returned, same⟩ := driverStep_newHand moved
      subst same
      obtain ⟨_, _, _, _, row, _, _, _, hands, _⟩ := PokerGame.startNewHand_db returned hand
      change opened.db.hands.length = tracked.hand + 1
      rw [hands, List.length_append, List.length_singleton, misfiled.number]
  | _ => rfl

theorem run_hand {final : LedgerState} {events : List DriverEvent} (misfiled : Misfiled tracked)
    (reached : Reached table tracked.state)
    (played : Runs.run ledgerStep tracked events = some final) :
    final.hand = tracked.hand + events.countP DriverEvent.opensHand := by
  induction events generalizing tracked with
  | nil =>
      cases played
      rfl
  | cons event rest ih =>
      obtain ⟨after, taken, remaining⟩ := Runs.run_cons_eq_some.mp played
      obtain ⟨kept, still⟩ := misfiled.step reached taken
      rw [ih kept still remaining, misfiled.step_hand reached taken, List.countP_cons]
      omega

end Misfiled

theorem first_event_opens {table : Table} {event : DriverEvent} {next : DriverState}
    (taken : driverStep table.start event = some next) : event.opensHand = true := by
  have between : table.start.stage ≠ .inHand := by simp [Table.start]
  cases event with
  | newHand shuffle => rfl
  | skip => exact absurd (driverStep_skip taken).1 between
  | decide decision => exact absurd (driverStep_decide taken).1 between
  | nextPhase => exact absurd (driverStep_nextPhase taken).1 between
  | showdown => exact absurd (driverStep_showdown taken).1 between

/-- In every driver run the rows under each hand's id are that hand's deeds exactly when no
hand was opened: the table holds the deeds with every blind filed under the hand before its
own, and those of the first hand nowhere. -/
theorem actions_filed_by_hand_iff (table : Table) (events : List DriverEvent)
    (tracked : LedgerState)
    (played : Runs.run ledgerStep table.startLedger events = some tracked) :
    (tracked.Filed ↔ ∀ event ∈ events, event.opensHand = false) ∧
      tracked.state.game.db.actions.map ActionRow.deed =
        tracked.deeds.filterMap Deed.filedAs := by
  have kept : Misfiled tracked ∧ Reached table tracked.state :=
    Runs.run_invariant_always (fun tracked => Misfiled tracked ∧ Reached table tracked.state)
      (fun _ _ _ holds taken => holds.1.step holds.2 taken)
      ⟨Misfiled.initial table, table.reached_start⟩ played
  have count := (Misfiled.initial table).run_hand table.reached_start played
  refine ⟨?_, kept.1.rows⟩
  constructor
  · intro filed event member
    by_contra opens
    have positive : 0 < events.countP DriverEvent.opensHand :=
      List.countP_pos_iff.mpr ⟨event, member, by simpa using opens⟩
    exact kept.1.not_filed (by omega) filed
  · intro unopened
    cases events with
    | nil =>
        cases played
        exact fun _ => rfl
    | cons event rest =>
        obtain ⟨after, taken, _⟩ := Runs.run_cons_eq_some.mp played
        obtain ⟨next, moved, _⟩ := Option.map_eq_some_iff.mp taken
        have opens := first_event_opens moved
        rw [unopened event (by simp)] at opens
        cases opens

def foldedHand : List DriverEvent :=
  [.newHand .unshuffled, .decide ⟨.fold, 0⟩, .nextPhase, .showdown, .newHand .unshuffled]

/-- The blinds of the second hand are stored under the id of the first. -/
theorem blinds_filed_one_hand_early :
    ∃ tracked, Runs.run ledgerStep headsUp.startLedger foldedHand = some tracked ∧
      ((tracked.state.game.db.actions.filter fun row => row.handId == 1).map ActionRow.deed =
        [⟨1, "preflop", 1, "fold"⟩, ⟨1, "preflop", 0, "small_blind"⟩,
          ⟨1, "preflop", 1, "big_blind"⟩]) ∧
      (tracked.deeds.filter fun deed => deed.hand == 1) =
        [⟨1, "preflop", 1, "small_blind"⟩, ⟨1, "preflop", 0, "big_blind"⟩,
          ⟨1, "preflop", 1, "fold"⟩] ∧
      ¬ tracked.Filed := by
  refine ⟨_, rfl, by decide, by decide, ?_⟩
  intro filed
  exact absurd (filed 1) (by decide)

theorem actions_filed_by_hand_iff_folded :
    ∃ tracked, Runs.run ledgerStep headsUp.startLedger foldedHand = some tracked ∧
      ¬ tracked.Filed := by
  have reached : ∃ tracked, Runs.run ledgerStep headsUp.startLedger foldedHand = some tracked :=
    ⟨_, rfl⟩
  obtain ⟨tracked, played⟩ := reached
  refine ⟨tracked, played, ?_⟩
  intro filed
  have unopened := (actions_filed_by_hand_iff headsUp foldedHand tracked played).1.mp filed
  exact absurd (unopened (.newHand .unshuffled) (by simp [foldedHand])) (by decide)

end Holdem
