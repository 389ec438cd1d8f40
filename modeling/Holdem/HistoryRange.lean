import Holdem.LostChips
import Holdem.Recording

set_option autoImplicit false

/- The integers that the history database can store. -/
namespace Holdem

/-- `sqlite3` stores an integer of at most 64 bits, and raises for any other. -/
def FitsColumn (value : Int) : Prop := -2 ^ 63 ≤ value ∧ value < 2 ^ 63

instance (value : Int) : Decidable (FitsColumn value) := inferInstanceAs (Decidable (_ ∧ _))

def HandRow.Fits (row : HandRow) : Prop :=
  FitsColumn row.smallBlind ∧ FitsColumn row.bigBlind ∧ FitsColumn row.dealerButton

def ActionRow.Fits (row : ActionRow) : Prop :=
  FitsColumn row.playerId ∧ FitsColumn row.amount ∧ FitsColumn row.potAfter

def ShowdownRow.Fits (row : ShowdownRow) : Prop :=
  FitsColumn row.playerId ∧ FitsColumn row.winnings

instance (row : HandRow) : Decidable row.Fits := inferInstanceAs (Decidable (_ ∧ _ ∧ _))

instance (row : ActionRow) : Decidable row.Fits := inferInstanceAs (Decidable (_ ∧ _ ∧ _))

instance (row : ShowdownRow) : Decidable row.Fits := inferInstanceAs (Decidable (_ ∧ _))

/-- Every integer in the tables fits its column. The ids of hands are numbered by SQLite. -/
structure GameHistoryDB.Fits (db : GameHistoryDB) : Prop where
  hands : ∀ row ∈ db.hands, row.Fits
  actions : ∀ row ∈ db.actions, row.Fits
  showdownResults : ∀ row ∈ db.showdownResults, row.Fits

instance (db : GameHistoryDB) : Decidable db.Fits :=
  decidable_of_iff ((∀ row ∈ db.hands, row.Fits) ∧ (∀ row ∈ db.actions, row.Fits) ∧
      ∀ row ∈ db.showdownResults, row.Fits)
    ⟨fun fits => ⟨fits.1, fits.2.1, fits.2.2⟩,
      fun fits => ⟨fits.hands, fits.actions, fits.showdownResults⟩⟩

/-- The end of a call that writes to the history. -/
def PokerGame.stored (game : PokerGame) : Except PyError PokerGame :=
  if game.db.Fits then .ok game
  else .error (.overflowError "Python int too large to convert to SQLite INTEGER")

theorem FitsColumn.of_le {value bound : Int} (low : 0 ≤ value) (high : value ≤ bound)
    (small : bound < 2 ^ 63) : FitsColumn value := ⟨by omega, by omega⟩

section Showdowns

variable {db : GameHistoryDB}

theorem recordShowdowns_fits (handId : Nat) {winningsMap : List (Int × Int)}
    {hands : List PlayerHand} (fits : db.Fits)
    (rows : ∀ shown ∈ hands, FitsColumn shown.player.id ∧
      FitsColumn ((winningsMap.lookup shown.player.id).getD 0)) :
    (PokerGame.recordShowdowns db handId winningsMap hands).Fits := by
  unfold PokerGame.recordShowdowns
  induction hands generalizing db with
  | nil => exact fits
  | cons shown rest ih =>
      obtain ⟨here, later⟩ := List.forall_mem_cons.mp rows
      rw [List.foldl_cons]
      refine ih ⟨fits.hands, fits.actions, ?_⟩ later
      intro row member
      rcases List.mem_append.mp member with old | new
      · exact fits.showdownResults row (List.mem_filter.mp old).1
      · rw [List.mem_singleton.mp new]
        exact here

theorem endHand_fits (handId : Nat) (fits : db.Fits) : (db.endHand handId).Fits := by
  refine ⟨?_, fits.actions, fits.showdownResults⟩
  intro row member
  obtain ⟨before, inside, rfl⟩ := List.mem_map.mp member
  split <;> exact fits.hands before inside

end Showdowns

theorem lookup_le_sum {items : List (Int × Int)} (nonneg : ∀ item ∈ items, 0 ≤ item.2)
    (key : Int) :
    0 ≤ (items.lookup key).getD 0 ∧ (items.lookup key).getD 0 ≤ (items.map Prod.snd).sum := by
  induction items with
  | nil => exact ⟨Int.le_refl 0, Int.le_refl 0⟩
  | cons item rest ih =>
      obtain ⟨here, later⟩ := List.forall_mem_cons.mp nonneg
      obtain ⟨low, high⟩ := ih later
      rw [List.lookup_cons, List.map_cons, List.sum_cons]
      cases key == item.1
      · exact ⟨low, by dsimp only; omega⟩
      · dsimp only [Option.getD_some]
        omega

namespace Reached

variable {table : Table} {state next : DriverState}

theorem fits_id (reached : Reached table state) {player : Player}
    (member : player ∈ state.game.players) : FitsColumn player.id := by
  have few := table.seats_le
  have known : player.id ∈ state.game.players.map Player.id := List.mem_map_of_mem member
  rw [reached.seated.ids] at known
  obtain ⟨seat, inside, same⟩ := List.mem_map.mp known
  have below := List.mem_range.mp inside
  have own : (seat : Int) = player.id := same
  rw [← own]
  exact .of_le (Int.natCast_nonneg seat) (show (seat : Int) ≤ 10 by omega) (by decide)

theorem pot_le (reached : Reached table state) (stage : state.stage = .inHand) :
    0 ≤ state.game.pot ∧ state.game.pot ≤ state.chipsInPlay := by
  have behind := PokerGame.stackTotal_nonneg reached.solvent.chips
  refine ⟨reached.solvent.pot, ?_⟩
  unfold DriverState.chipsInPlay
  rw [if_pos stage]
  omega

theorem fits_newHand (reached : Reached table state) {shuffle : Shuffle}
    (taken : driverStep state (.newHand shuffle) = some next)
    (small : next.chipsInPlay < 2 ^ 63)
    (blinds : FitsColumn table.smallBlind ∧ FitsColumn table.bigBlind)
    (fits : state.game.db.Fits) : next.game.db.Fits := by
  have after := reached.step taken
  obtain ⟨_, stage, button, hand⟩ := reached.opened taken
  have pot := after.pot_le stage
  obtain ⟨_, _, opened, returned, rfl⟩ := driverStep_newHand taken
  obtain ⟨smallPlayer, bigPlayer, smallPaid, bigPaid, row, smallFound, bigFound, actions, hands,
    results, _, _, _, smallBlind, bigBlind, dealer, total, paid⟩ :=
    PokerGame.startNewHand_db returned hand
  obtain ⟨smallNonneg, bigNonneg⟩ := paid reached.solvent.chips
  have ids : ∀ player ∈ opened.players, FitsColumn player.id :=
    fun player member => after.fits_id member
  dsimp only at hand pot small after ⊢
  refine ⟨?_, ?_, by rw [results]; exact fits.showdownResults⟩
  · rw [hands]
    intro other member
    rcases List.mem_append.mp member with old | new
    · exact fits.hands other old
    · rw [List.mem_singleton.mp new]
      refine ⟨?_, ?_, ?_⟩
      · rw [smallBlind, after.seated.blinds.1]
        exact blinds.1
      · rw [bigBlind, after.seated.blinds.2]
        exact blinds.2
      · rw [dealer]
        cases there : opened.players[opened.dealerButton]? with
        | none => decide
        | some player => exact ids player (List.mem_of_getElem? there)
  · rw [actions]
    intro other member
    rcases List.mem_append.mp member with old | new
    · exact fits.actions other old
    · obtain ⟨handId, _, posted⟩ := List.mem_flatMap.mp new
      simp only [List.mem_cons, List.not_mem_nil, or_false] at posted
      have smallFits : FitsColumn smallPaid := .of_le smallNonneg (by omega) small
      have bigFits : FitsColumn bigPaid := .of_le bigNonneg (by omega) small
      rcases posted with rfl | rfl
      · exact ⟨ids _ (List.mem_of_find?_eq_some smallFound), smallFits, smallFits⟩
      · exact ⟨ids _ (List.mem_of_find?_eq_some bigFound), bigFits, .of_le pot.1 pot.2 small⟩

/-- Of an action only the amount can be out of range. -/
theorem fits_action (reached : Reached table state) {player : Player} {action : Action}
    {amount : Int} {done : Performed} (turn : state.game.Turn player)
    (current : state.game.currentHandId.isSome = true)
    (after : Reached table ⟨.inHand, state.game.afterAction done player.id action amount⟩)
    (small : (DriverState.mk .inHand
      (state.game.afterAction done player.id action amount)).chipsInPlay < 2 ^ 63)
    (fits : state.game.db.Fits) :
    (state.game.afterAction done player.id action amount).db.Fits ↔
      FitsColumn (PokerGame.recordedAmount done action amount) := by
  obtain ⟨actions, hands, results, _, paid⟩ :=
    state.game.afterAction_db done player.id action amount
  obtain ⟨handId, opened⟩ := Option.isSome_iff_exists.mp current
  have pot := after.pot_le rfl
  rw [opened, Option.toList_some, List.map_singleton] at actions
  constructor
  · intro all
    exact (all.actions (state.game.actionRow done handId player.id action amount)
      (by simp [actions])).2.1
  · intro column
    refine ⟨by rw [hands]; exact fits.hands, ?_, by rw [results]; exact fits.showdownResults⟩
    rw [actions]
    intro row member
    rcases List.mem_append.mp member with old | new
    · exact fits.actions row old
    · rw [List.mem_singleton.mp new]
      refine ⟨reached.fits_id (List.mem_of_getElem? turn.here), column, ?_⟩
      change FitsColumn (state.game.pot + done.paid)
      rw [← paid]
      exact .of_le pot.1 pot.2 small

theorem fits_nextPhase (reached : Reached table state)
    (taken : driverStep state .nextPhase = some next) (fits : state.game.db.Fits) :
    next.game.db.Fits := by
  obtain ⟨_, _, _, moved, returned, _⟩ := driverStep_nextPhase taken
  obtain ⟨actions, hands, results, _⟩ := PokerGame.nextPhase_db reached.solvent.served returned
  exact ⟨by rw [hands]; exact fits.hands, by rw [actions]; exact fits.actions,
    by rw [results]; exact fits.showdownResults⟩

/-- What a showdown pays is paid out of the chips in play. -/
theorem fits_showdown (reached : Reached table state)
    (taken : driverStep state .showdown = some next) (small : next.chipsInPlay < 2 ^ 63)
    (fits : state.game.db.Fits) : next.game.db.Fits := by
  obtain ⟨stage, _, result, returned, between⟩ := driverStep_showdown taken
  by_cases several : 2 ≤ state.game.remainingPlayers.length
  · obtain ⟨hands, shown, paid⟩ := PokerGame.conductShowdown_contested returned several
    have same : next.game = (state.game.contestedShowdown hands).1 := congrArg Prod.fst paid
    have totals := PokerGame.contestedShowdown_stacks reached.seated.distinct shown
    rw [← same] at totals
    have behind := PokerGame.stackTotal_nonneg reached.solvent.chips
    unfold DriverState.chipsInPlay at small
    rw [between, if_neg (by decide)] at small
    have nonneg : ∀ item ∈ (state.game.settled hands).winningsMap, 0 ≤ item.2 := by
      intro item member
      exact state.game.settled_nonneg hands item
        ((List.perm_insertionSort _ _).mem_iff.mpr member)
    rw [same]
    dsimp only [PokerGame.contestedShowdown, PokerGame.recordInHand]
    cases state.game.currentHandId with
    | none => exact fits
    | some handId =>
        refine endHand_fits handId (recordShowdowns_fits handId fits ?_)
        intro one member
        have inside : one.player ∈ state.game.remainingPlayers :=
          shown ▸ List.mem_map_of_mem member
        obtain ⟨low, high⟩ := lookup_le_sum nonneg one.player.id
        refine ⟨reached.fits_id (List.mem_filter.mp inside).1, .of_le low (high.trans ?_) small⟩
        change (state.game.settled hands).won ≤ _
        unfold PokerGame.stackTotal at behind ⊢
        omega
  · rw [(PokerGame.conductShowdown_db returned).2.2 (by omega)]
    exact fits

end Reached

end Holdem
