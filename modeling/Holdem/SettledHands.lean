import Holdem.Recording
import Holdem.Legality

set_option autoImplicit false

namespace Holdem

/-- A hand that reached `conduct_showdown`: its number, the chips handed out, and whether
two or more players were left. -/
structure SettledHand where
  hand : Nat
  awarded : Int
  contested : Bool
deriving DecidableEq, Repr

def PokerGame.stackTotal (game : PokerGame) : Int := (game.players.map Player.chips).sum

/-- The driver with a list of the hands that were settled. -/
structure SettledState where
  state : DriverState
  settled : List SettledHand

/-- One step of the driver; a showdown settles the hand numbered last. -/
def settledStep (tracked : SettledState) (event : DriverEvent) : Option SettledState :=
  (driverStep tracked.state event).map fun next =>
    match event with
    | .showdown =>
        ⟨next, tracked.settled ++ [⟨tracked.state.game.db.hands.length,
          next.game.stackTotal - tracked.state.game.stackTotal,
          decide (2 ≤ tracked.state.game.remainingPlayers.length)⟩]⟩
    | _ => ⟨next, tracked.settled⟩

def Table.startSettled (table : Table) : SettledState := ⟨table.start, []⟩

/-- A step that, if it is a showdown, has two or more players left. -/
def contestedStep (state : DriverState) (event : DriverEvent) : Bool :=
  match event with
  | .showdown => decide (2 ≤ state.game.remainingPlayers.length)
  | _ => true

def GameHistoryDB.winningsOf (db : GameHistoryDB) (hand : Nat) : Int :=
  ((db.showdownResults.filter fun row => row.handId == hand).map ShowdownRow.winnings).sum

/-- The history knows of every settled hand that it has ended and who won what in it, and the
players' statistics add up to all chips handed out. -/
structure HistoryCloses (tracked : SettledState) : Prop where
  ended : ∀ entry ∈ tracked.settled, ∃ row ∈ tracked.state.game.db.hands,
    row.handId = entry.hand ∧ row.ended = true
  winnings : ∀ entry ∈ tracked.settled,
    tracked.state.game.db.winningsOf entry.hand = entry.awarded
  total : (tracked.state.game.players.map fun player =>
      (tracked.state.game.db.getPlayerActionStats player.id).totalWinnings).sum =
    (tracked.settled.map SettledHand.awarded).sum

namespace PokerGame

theorem recordShowdowns_fresh (handId : Nat) (winningsMap : List (Int × Int))
    {hands : List PlayerHand} (distinct : (hands.map fun shown => shown.player.id).Nodup)
    {db : GameHistoryDB} (fresh : ∀ row ∈ db.showdownResults, row.handId = handId →
      row.playerId ∉ hands.map fun shown => shown.player.id) :
    ∃ rows, (recordShowdowns db handId winningsMap hands).showdownResults =
        db.showdownResults ++ rows ∧
      rows.map (fun row => (row.handId, row.playerId, row.winnings)) =
        hands.map fun shown =>
          (handId, shown.player.id, (winningsMap.lookup shown.player.id).getD 0) := by
  unfold recordShowdowns
  induction hands generalizing db with
  | nil => exact ⟨[], by simp, rfl⟩
  | cons shown rest ih =>
      simp only [List.map_cons, List.nodup_cons, List.mem_cons, not_or] at distinct fresh
      have kept : (db.showdownResults.filter fun old =>
          ¬ (old.handId = handId ∧ old.playerId = shown.player.id)) = db.showdownResults := by
        apply List.filter_eq_self.mpr
        intro row member
        simp only [decide_eq_true_eq, not_and]
        exact fun same => (fresh row member same).1
      have appended : (db.recordShowdown handId shown.player.id
          (shown.player.holeCards.map Card.str) shown.hand.str
          ((winningsMap.lookup shown.player.id).getD 0)).showdownResults =
          db.showdownResults ++ [⟨handId, shown.player.id,
            if (shown.player.holeCards.map Card.str).isEmpty then none
              else some (shown.player.holeCards.map Card.str), shown.hand.str,
            (winningsMap.lookup shown.player.id).getD 0⟩] := by
        unfold GameHistoryDB.recordShowdown
        dsimp only
        rw [kept]
      rw [List.foldl_cons]
      have stillFresh : ∀ row ∈ (db.recordShowdown handId shown.player.id
          (shown.player.holeCards.map Card.str) shown.hand.str
          ((winningsMap.lookup shown.player.id).getD 0)).showdownResults, row.handId = handId →
          row.playerId ∉ rest.map fun shown => shown.player.id := by
        intro row member same
        rw [appended, List.mem_append, List.mem_singleton] at member
        rcases member with old | rfl
        · exact (fresh row old same).2
        · exact distinct.1
      obtain ⟨rows, written, values⟩ := ih distinct.2 stillFresh
      rw [appended, List.append_assoc] at written
      refine ⟨_, written, ?_⟩
      rw [List.singleton_append, List.map_cons, List.map_cons, values]

/-- A contested showdown records, under the hand's id, winnings that add up to the chips it
hands out, and closes the hand. -/
theorem contestedShowdown_records {game : PokerGame} {hands : List PlayerHand} {handId : Nat}
    (distinct : (game.players.map Player.id).Nodup)
    (shown : hands.map PlayerHand.player = game.remainingPlayers)
    (current : game.currentHandId = some handId)
    (fresh : ∀ row ∈ game.db.showdownResults, row.handId ≠ handId) :
    let next := (game.contestedShowdown hands).1
    ∃ rows, next.db.showdownResults = game.db.showdownResults ++ rows ∧
      (∀ row ∈ rows, row.handId = handId ∧ row.playerId ∈ game.players.map Player.id) ∧
      (rows.map ShowdownRow.winnings).sum = next.stackTotal - game.stackTotal ∧
      next.db.hands = game.db.hands.map fun row =>
        if row.handId = handId then { row with ended := true } else row := by
  intro next
  let paid := game.settled hands
  have ids : (hands.map fun shown => shown.player.id) = game.remainingPlayers.map Player.id := by
    rw [← shown, List.map_map]
    rfl
  have shownDistinct : (game.remainingPlayers.map Player.id).Nodup :=
    distinct.sublist (List.Sublist.map Player.id List.filter_sublist)
  have atTable : ∀ key ∈ game.remainingPlayers.map Player.id, key ∈ game.players.map Player.id :=
    fun key member => (List.Sublist.map Player.id List.filter_sublist).subset member
  obtain ⟨_, _, winners⟩ :=
    distributeLayers_spec (shown_lookup distinct shown) (buildPotLayers game.contributions)
  have keys : (paid.winningsMap.map Prod.fst).Nodup := distributeLayers_keys_nodup _ _ _
  obtain ⟨rows, written, values⟩ := recordShowdowns_fresh handId paid.winningsMap
    (ids ▸ shownDistinct) (fun row member same => absurd same (fresh row member))
  have db : next.db = (recordShowdowns game.db handId paid.winningsMap hands).endHand handId := by
    change (game.recordInHand fun handId db =>
      (recordShowdowns db handId paid.winningsMap hands).endHand handId) = _
    unfold recordInHand
    rw [current]
  have totals : next.stackTotal = game.stackTotal + (paid.winningsMap.map Prod.snd).sum :=
    contestedShowdown_stacks distinct shown
  refine ⟨rows, ?_, ?_, ?_, ?_⟩
  · rw [db]
    exact written
  · intro row member
    have image := List.mem_map_of_mem (f := fun row : ShowdownRow =>
      (row.handId, row.playerId, row.winnings)) member
    rw [values] at image
    obtain ⟨one, inside, same⟩ := List.mem_map.mp image
    simp only [Prod.mk.injEq] at same
    refine ⟨same.1.symm, ?_⟩
    rw [← same.2.1]
    apply atTable
    rw [← ids]
    exact List.mem_map_of_mem (f := fun shown : PlayerHand => shown.player.id) inside
  · have amounts := congrArg (List.map fun triple : Nat × Int × Int => triple.2.2) values
    simp only [List.map_map, Function.comp_def] at amounts
    have lookups : (rows.map ShowdownRow.winnings) =
        (game.remainingPlayers.map Player.id).map fun key => (paid.winningsMap.lookup key).getD 0 := by
      rw [← ids, List.map_map]
      exact amounts
    rw [lookups, Dict.sum_lookup keys shownDistinct winners, totals]
    omega
  · rw [db]
    unfold GameHistoryDB.endHand
    dsimp only
    rw [(recordShowdowns_keeps _ _ _ _).2]

end PokerGame

namespace GameHistoryDB

variable {db next : GameHistoryDB} {hand : Nat}

theorem winningsOf_congr (results : next.showdownResults = db.showdownResults) :
    next.winningsOf hand = db.winningsOf hand := by
  unfold winningsOf
  rw [results]

theorem winningsOf_absent (absent : ∀ row ∈ db.showdownResults, row.handId ≠ hand) :
    db.winningsOf hand = 0 := by
  have none : (db.showdownResults.filter fun row => row.handId == hand) = [] := by
    apply List.filter_eq_nil_iff.mpr
    intro row member
    simpa using absent row member
  unfold winningsOf
  rw [none]
  rfl

theorem winningsOf_append {rows : List ShowdownRow} {filedUnder : Nat}
    (results : next.showdownResults = db.showdownResults ++ rows)
    (filed : ∀ row ∈ rows, row.handId = filedUnder) :
    next.winningsOf hand =
      db.winningsOf hand + if filedUnder = hand then (rows.map ShowdownRow.winnings).sum else 0 := by
  unfold winningsOf
  rw [results, List.filter_append, List.map_append, List.sum_append]
  split
  · rename_i same
    have all : (rows.filter fun row => row.handId == hand) = rows := by
      apply List.filter_eq_self.mpr
      intro row member
      simpa [same] using filed row member
    rw [all]
  · rename_i apart
    have none : (rows.filter fun row => row.handId == hand) = [] := by
      apply List.filter_eq_nil_iff.mpr
      intro row member
      rw [filed row member]
      simpa using apart
    rw [none]
    rfl

end GameHistoryDB

/-- The tables as the settled hands determine them. -/
structure ClosedBooks (stage : Stage) (game : PokerGame) (settled : List SettledHand) : Prop where
  current : game.currentHandId =
    if game.db.hands.length = 0 then none else some game.db.hands.length
  latest : game.db.hands.length ≠ 0 →
    ∃ row ∈ game.db.hands, row.handId = game.db.hands.length
  numbered : ∀ row ∈ game.db.hands, row.handId ≤ game.db.hands.length
  shown : ∀ row ∈ game.db.showdownResults, row.handId ≤ game.db.hands.length ∧
    row.playerId ∈ game.players.map Player.id
  past : ∀ entry ∈ settled, entry.hand ≤ game.db.hands.length
  playing : stage = .inHand → game.db.hands.length ≠ 0 ∧
    (∀ row ∈ game.db.hands, row.handId = game.db.hands.length → row.ended = false) ∧
    (∀ row ∈ game.db.showdownResults, row.handId ≠ game.db.hands.length) ∧
    ∀ entry ∈ settled, entry.hand ≠ game.db.hands.length
  contested : ∀ entry ∈ settled, entry.contested = true →
    (∃ row ∈ game.db.hands, row.handId = entry.hand ∧ row.ended = true) ∧
      game.db.winningsOf entry.hand = entry.awarded
  uncontested : ∀ entry ∈ settled, entry.contested = false →
    ∀ row ∈ game.db.hands, row.handId = entry.hand → row.ended = false
  total : (game.db.showdownResults.map ShowdownRow.winnings).sum =
    ((settled.filter SettledHand.contested).map SettledHand.awarded).sum

namespace ClosedBooks

variable {table : Table} {stage after : Stage} {game next : PokerGame}
  {settled : List SettledHand}

theorem initial (table : Table) : ClosedBooks .betweenHands table.game [] := by
  have none : ∀ {α : Type} {motive : α → Prop}, ∀ item ∈ ([] : List α), motive item := by
    intro α motive item member
    cases member
  refine ⟨rfl, fun some => absurd rfl some, none, none, none, ?_, none, none, rfl⟩
  intro stage
  cases stage

theorem quiet (books : ClosedBooks .inHand game settled) (after : Stage)
    (hands : next.db.hands = game.db.hands)
    (results : next.db.showdownResults = game.db.showdownResults)
    (current : next.currentHandId = game.currentHandId)
    (ids : next.players.map Player.id = game.players.map Player.id) :
    ClosedBooks after next settled := by
  have winnings : ∀ hand, next.db.winningsOf hand = game.db.winningsOf hand := fun _ =>
    GameHistoryDB.winningsOf_congr results
  constructor
  · rw [current, hands]
    exact books.current
  · rw [hands]
    exact books.latest
  · rw [hands]
    exact books.numbered
  · rw [hands, results, ids]
    exact books.shown
  · rw [hands]
    exact books.past
  · rw [hands, results]
    exact fun _ => books.playing rfl
  · rw [hands]
    simp only [winnings]
    exact books.contested
  · rw [hands]
    exact books.uncontested
  · rw [results]
    exact books.total

theorem newHand (books : ClosedBooks stage game settled) {row : HandRow}
    (hands : next.db.hands = game.db.hands ++ [row])
    (results : next.db.showdownResults = game.db.showdownResults)
    (number : row.handId = game.db.hands.length + 1) (unended : row.ended = false)
    (current : next.currentHandId = some row.handId)
    (ids : next.players.map Player.id = game.players.map Player.id) :
    ClosedBooks after next settled := by
  have length : next.db.hands.length = game.db.hands.length + 1 := by
    rw [hands, List.length_append, List.length_singleton]
  have winnings : ∀ hand, next.db.winningsOf hand = game.db.winningsOf hand := fun _ =>
    GameHistoryDB.winningsOf_congr results
  have listed : ∀ other ∈ next.db.hands, other ∈ game.db.hands ∨ other = row := by
    intro other member
    rwa [hands, List.mem_append, List.mem_singleton] at member
  constructor
  · rw [if_neg (by omega), current, number, length]
  · intro _
    exact ⟨row, by simp [hands], by rw [number, length]⟩
  · intro other member
    rcases listed other member with old | rfl
    · have := books.numbered other old
      omega
    · omega
  · intro other member
    rw [results] at member
    obtain ⟨bound, known⟩ := books.shown other member
    exact ⟨by omega, ids ▸ known⟩
  · intro entry member
    have := books.past entry member
    omega
  · intro _
    refine ⟨by omega, ?_, ?_, ?_⟩
    · intro other member last
      rcases listed other member with old | rfl
      · have := books.numbered other old
        omega
      · exact unended
    · intro other member
      rw [results] at member
      have := (books.shown other member).1
      omega
    · intro entry member
      have := books.past entry member
      omega
  · intro entry member fought
    obtain ⟨⟨other, inside, same, closed⟩, sum⟩ := books.contested entry member fought
    exact ⟨⟨other, by simp [hands, inside], same, closed⟩, by rw [winnings]; exact sum⟩
  · intro entry member alone other otherIn same
    rcases listed other otherIn with old | rfl
    · exact books.uncontested entry member alone other old same
    · exact unended
  · rw [results]
    exact books.total

/-- A hand that ends uncontested leaves its row open for good. -/
theorem unrecorded (books : ClosedBooks .inHand game settled) (awarded : Int)
    (db : next.db = game.db) (current : next.currentHandId = game.currentHandId)
    (ids : next.players.map Player.id = game.players.map Player.id) :
    ClosedBooks .betweenHands next (settled ++ [⟨game.db.hands.length, awarded, false⟩]) := by
  obtain ⟨_, opened, _, _⟩ := books.playing rfl
  have listed : ∀ entry ∈ settled ++ [⟨game.db.hands.length, awarded, false⟩],
      entry ∈ settled ∨ entry = ⟨game.db.hands.length, awarded, false⟩ := by
    intro entry member
    rwa [List.mem_append, List.mem_singleton] at member
  constructor
  · rw [current, db]
    exact books.current
  · rw [db]
    exact books.latest
  · rw [db]
    exact books.numbered
  · rw [db, ids]
    exact books.shown
  · intro entry member
    rw [db]
    rcases listed entry member with old | rfl
    · exact books.past entry old
    · exact Nat.le_refl _
  · intro stage
    cases stage
  · intro entry member fought
    rw [db]
    rcases listed entry member with old | rfl
    · exact books.contested entry old fought
    · cases fought
  · intro entry member alone
    rw [db]
    rcases listed entry member with old | rfl
    · exact books.uncontested entry old alone
    · exact opened
  · rw [db, List.filter_append, books.total]
    simp

theorem recorded (books : ClosedBooks .inHand game settled) {rows : List ShowdownRow}
    (results : next.db.showdownResults = game.db.showdownResults ++ rows)
    (filed : ∀ row ∈ rows, row.handId = game.db.hands.length ∧
      row.playerId ∈ game.players.map Player.id)
    (hands : next.db.hands = game.db.hands.map fun row =>
      if row.handId = game.db.hands.length then { row with ended := true } else row)
    (current : next.currentHandId = game.currentHandId)
    (ids : next.players.map Player.id = game.players.map Player.id) :
    ClosedBooks .betweenHands next
      (settled ++ [⟨game.db.hands.length, (rows.map ShowdownRow.winnings).sum, true⟩]) := by
  obtain ⟨started, _, unshown, unsettled⟩ := books.playing rfl
  have length : next.db.hands.length = game.db.hands.length := by
    rw [hands, List.length_map]
  have listed : ∀ entry ∈
      settled ++ [⟨game.db.hands.length, (rows.map ShowdownRow.winnings).sum, true⟩],
      entry ∈ settled ∨
        entry = ⟨game.db.hands.length, (rows.map ShowdownRow.winnings).sum, true⟩ := by
    intro entry member
    rwa [List.mem_append, List.mem_singleton] at member
  have origin : ∀ row ∈ next.db.hands, ∃ old ∈ game.db.hands, old.handId = row.handId ∧
      (row.handId ≠ game.db.hands.length → row = old) := by
    intro row member
    rw [hands] at member
    obtain ⟨old, inside, rfl⟩ := List.mem_map.mp member
    refine ⟨old, inside, ?_, ?_⟩
    · split <;> rfl
    · intro apart
      split
      · rename_i same
        rw [if_pos same] at apart
        exact absurd same apart
      · rfl
  constructor
  · rw [current, length]
    exact books.current
  · intro _
    obtain ⟨row, member, number⟩ := books.latest started
    refine ⟨{ row with ended := true }, ?_, by rw [length]; exact number⟩
    rw [hands]
    exact List.mem_map.mpr ⟨row, member, if_pos number⟩
  · intro row member
    obtain ⟨old, inside, same, _⟩ := origin row member
    rw [length, ← same]
    exact books.numbered old inside
  · intro row member
    rw [length, ids]
    rw [results, List.mem_append] at member
    rcases member with old | new
    · exact books.shown row old
    · obtain ⟨number, known⟩ := filed row new
      exact ⟨Nat.le_of_eq number, known⟩
  · intro entry member
    rw [length]
    rcases listed entry member with old | rfl
    · exact books.past entry old
    · exact Nat.le_refl _
  · intro stage
    cases stage
  · intro entry member fought
    rw [GameHistoryDB.winningsOf_append results fun row new => (filed row new).1]
    rcases listed entry member with old | rfl
    · have apart := unsettled entry old
      obtain ⟨⟨row, inside, number, ended⟩, sum⟩ := books.contested entry old fought
      refine ⟨⟨row, ?_, number, ended⟩, ?_⟩
      · rw [hands]
        exact List.mem_map.mpr ⟨row, inside, if_neg (by rw [number]; exact apart)⟩
      · rw [if_neg (Ne.symm apart), Int.add_zero]
        exact sum
    · obtain ⟨row, inside, number⟩ := books.latest started
      refine ⟨⟨{ row with ended := true }, ?_, number, rfl⟩, ?_⟩
      · rw [hands]
        exact List.mem_map.mpr ⟨row, inside, if_pos number⟩
      · rw [GameHistoryDB.winningsOf_absent unshown, if_pos rfl, Int.zero_add]
  · intro entry member alone row rowIn same
    rcases listed entry member with old | rfl
    · obtain ⟨before, inside, number, kept⟩ := origin row rowIn
      have apart := unsettled entry old
      rw [kept (by rw [same]; exact apart)]
      exact books.uncontested entry old alone before inside (by rw [number, same])
    · cases alone
  · rw [results, List.map_append, List.sum_append, books.total, List.filter_append]
    simp

theorem step {tracked moved : SettledState} {event : DriverEvent}
    (books : ClosedBooks tracked.state.stage tracked.state.game tracked.settled)
    (reached : Reached table tracked.state) (taken : settledStep tracked event = some moved) :
    ClosedBooks moved.state.stage moved.state.game moved.settled := by
  obtain ⟨next, step, rfl⟩ := Option.map_eq_some_iff.mp taken
  have kept := reached.step step
  have ids : next.game.players.map Player.id = tracked.state.game.players.map Player.id :=
    kept.seated.ids.trans reached.seated.ids.symm
  cases event with
  | newHand shuffle =>
      obtain ⟨_, _, button, hand⟩ := reached.opened step
      obtain ⟨_, _, opened, returned, same⟩ := driverStep_newHand step
      subst same
      obtain ⟨_, _, _, _, row, _, _, _, hands, results, number, unended, current, _⟩ :=
        PokerGame.startNewHand_db returned hand
      exact books.newHand hands results number unended current ids
  | skip =>
      obtain ⟨stage, _, _, _, rfl⟩ := driverStep_skip step
      obtain ⟨db, current, _⟩ := tracked.state.game.advance_db
      rw [stage] at books
      exact books.quiet _ (by rw [db]) (by rw [db]) current ids
  | decide decision =>
      obtain ⟨stage, _, _, player, action, amount, done, _, _, rfl, _⟩ := reached.decided step
      obtain ⟨_, hands, results, current, _⟩ :=
        tracked.state.game.afterAction_db done player.id action amount
      rw [stage] at books
      exact books.quiet _ hands results current ids
  | nextPhase =>
      obtain ⟨stage, _, _, _, returned, _⟩ := driverStep_nextPhase step
      obtain ⟨_, hands, results, current, _⟩ :=
        PokerGame.nextPhase_db reached.solvent.served returned
      rw [stage] at books
      exact books.quiet _ hands results current ids
  | showdown =>
      obtain ⟨stage, _, result, returned, after⟩ := driverStep_showdown step
      obtain ⟨_, current, alone⟩ := PokerGame.conductShowdown_db returned
      rw [stage] at books
      dsimp only
      rw [after]
      by_cases several : 2 ≤ tracked.state.game.remainingPlayers.length
      · obtain ⟨hands, shown, settled⟩ := PokerGame.conductShowdown_contested returned several
        have final : next.game = (tracked.state.game.contestedShowdown hands).1 :=
          congrArg Prod.fst settled
        have handId := books.current
        rw [if_neg (books.playing rfl).1] at handId
        obtain ⟨rows, results, filed, sum, closed⟩ := PokerGame.contestedShowdown_records
          reached.seated.distinct shown handId (books.playing rfl).2.2.1
        rw [← final] at results sum closed
        rw [← sum, decide_eq_true several]
        exact books.recorded results filed closed current ids
      · rw [decide_eq_false several]
        exact books.unrecorded _ (alone (by omega)) current ids

/-- The history closes every settled hand exactly when each was contested. -/
theorem closes_iff {tracked : SettledState}
    (books : ClosedBooks tracked.state.stage tracked.state.game tracked.settled)
    (seated : Seated table tracked.state.game) :
    HistoryCloses tracked ↔ ∀ entry ∈ tracked.settled, entry.contested = true := by
  have stats : (tracked.state.game.players.map fun player =>
      (tracked.state.game.db.getPlayerActionStats player.id).totalWinnings).sum =
      (tracked.state.game.db.showdownResults.map ShowdownRow.winnings).sum := by
    rw [← Dict.sum_by_key ShowdownRow.playerId ShowdownRow.winnings seated.distinct
      fun row member => (books.shown row member).2, List.map_map]
    rfl
  constructor
  · intro closes entry member
    by_contra alone
    obtain ⟨row, inside, same, ended⟩ := closes.ended entry member
    rw [books.uncontested entry member (by simpa using alone) row inside same] at ended
    cases ended
  · intro contested
    refine ⟨?_, ?_, ?_⟩
    · exact fun entry member => (books.contested entry member (contested entry member)).1
    · exact fun entry member => (books.contested entry member (contested entry member)).2
    · rw [stats, books.total, List.filter_eq_self.mpr contested]

end ClosedBooks

theorem settled_contested_iff {start final : SettledState} {events : List DriverEvent}
    (played : Runs.run settledStep start events = some final) :
    (∀ entry ∈ final.settled, entry.contested = true) ↔
      (∀ entry ∈ start.settled, entry.contested = true) ∧
        Runs.meets settledStep (fun tracked => contestedStep tracked.state) start events = true := by
  induction events generalizing start with
  | nil =>
      cases played
      simp [Runs.meets]
  | cons event rest ih =>
      obtain ⟨middle, taken, remaining⟩ := Runs.run_cons_eq_some.mp played
      rw [ih remaining, Runs.meets_cons taken, ← and_assoc]
      obtain ⟨next, step, rfl⟩ := Option.map_eq_some_iff.mp taken
      cases event with
      | showdown => simp [contestedStep, or_imp, forall_and]
      | _ => simp [contestedStep]

/-- In every driver run the history has closed every hand that reached a showdown, with
winnings that add up to the chips handed out, exactly when every showdown of the run was
between two or more players. -/
theorem history_closes_iff (table : Table) (events : List DriverEvent) (tracked : SettledState)
    (played : Runs.run settledStep table.startSettled events = some tracked) :
    HistoryCloses tracked ↔
      Runs.meets settledStep (fun tracked => contestedStep tracked.state) table.startSettled
        events = true := by
  have kept : ClosedBooks tracked.state.stage tracked.state.game tracked.settled ∧
      Reached table tracked.state :=
    Runs.run_invariant_always
      (fun tracked => ClosedBooks tracked.state.stage tracked.state.game tracked.settled ∧
        Reached table tracked.state)
      (fun before event after holds taken => by
        refine ⟨holds.1.step holds.2 taken, ?_⟩
        obtain ⟨next, step, rfl⟩ := Option.map_eq_some_iff.mp taken
        cases event <;> exact holds.2.step step)
      ⟨ClosedBooks.initial table, table.reached_start⟩ played
  rw [kept.1.closes_iff kept.2.seated, settled_contested_iff played]
  simp [Table.startSettled]

def wonByDefault : List DriverEvent :=
  [.newHand .unshuffled, .decide ⟨.fold, 0⟩, .nextPhase, .showdown]

/-- The 30 chips of an uncontested hand are paid, but the hand is never closed and nobody's
statistics show them. -/
theorem default_win_unrecorded :
    ∃ tracked, Runs.run settledStep headsUp.startSettled wonByDefault = some tracked ∧
      tracked.settled = [⟨1, 30, false⟩] ∧
      tracked.state.game.db.hands.map HandRow.ended = [false] ∧
      tracked.state.game.db.showdownResults = [] ∧ ¬ HistoryCloses tracked := by
  refine ⟨_, rfl, by decide, by decide, by decide, ?_⟩
  intro closes
  exact absurd closes.total (by decide)

def shovedHand : List DriverEvent :=
  [.newHand .unshuffled, .decide ⟨.allIn, 0⟩, .decide ⟨.allIn, 0⟩, .nextPhase, .nextPhase,
    .nextPhase, .nextPhase, .showdown]

theorem history_closes_iff_shoved :
    ∃ tracked, Runs.run settledStep headsUp.startSettled shovedHand = some tracked ∧
      HistoryCloses tracked := by
  have reached : ∃ tracked, Runs.run settledStep headsUp.startSettled shovedHand = some tracked ∧
      Runs.meets settledStep (fun tracked => contestedStep tracked.state) headsUp.startSettled
        shovedHand = true := ⟨_, rfl, rfl⟩
  obtain ⟨tracked, played, contested⟩ := reached
  exact ⟨tracked, played, (history_closes_iff headsUp shovedHand tracked played).mpr contested⟩

end Holdem
