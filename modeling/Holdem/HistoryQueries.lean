import Holdem.Recording
import Holdem.Legality
import Holdem.Lib.Grouping

set_option autoImplicit false

namespace Holdem

/-- The dictionary `get_hand_history` returns: the row of the hand with its actions, its
boards by phase, and its showdown. -/
structure HandHistory where
  hand : HandRow
  actions : List ActionRow
  communityCards : List (String × List String)
  showdownResults : List ShowdownRow
deriving DecidableEq, Repr

/-- `LIMIT`: a negative limit is none. -/
def limitTo {α : Type} (limit : Int) (rows : List α) : List α :=
  if limit < 0 then rows else rows.take limit.toNat

namespace GameHistoryDB

/-- `GameHistoryDB.get_hand_history`. Where no `ORDER BY` is given SQLite reads the rows of the
hand by the index of the table's key: boards by phase and showdown rows by player. -/
def getHandHistory (db : GameHistoryDB) (handId : Nat) : Option HandHistory :=
  (db.hands.find? fun row => row.handId == handId).map fun row =>
    { hand := row
      actions := db.actions.filter fun action => action.handId == handId
      communityCards := Dict.ofPairs (((db.communityCards.filter fun board =>
        board.handId == handId).insertionSort fun left right => left.phase ≤ right.phase).map
          fun board => (board.phase, board.cards))
      showdownResults := (db.showdownResults.filter fun shown =>
        shown.handId == handId).insertionSort fun left right => left.playerId ≤ right.playerId }

def getRecentHands (db : GameHistoryDB) (limit : Int) : List (Option HandHistory) :=
  (limitTo limit ((db.hands.map HandRow.handId).insertionSort fun left right =>
    left ≥ right)).map db.getHandHistory

def getPlayerRecentActions (db : GameHistoryDB) (playerId : Int) (limit : Int) :
    List ActionRow :=
  limitTo limit (db.actions.filter fun row => decide (row.playerId = playerId)).reverse

end GameHistoryDB

/-! ### The writes of a call -/

/-- A write to the tables under the id of a hand. -/
inductive HistoryWrite
  | action (row : ActionRow)
  | board (row : CommunityRow)
  | shown (handId : Nat) (playerId : Int) (holeCards : List String) (handRank : String)
      (winnings : Int)
  | ended (handId : Nat)

def HistoryWrite.handId : HistoryWrite → Nat
  | .action row => row.handId
  | .board row => row.handId
  | .shown handId _ _ _ _ => handId
  | .ended handId => handId

def GameHistoryDB.write (db : GameHistoryDB) : HistoryWrite → GameHistoryDB
  | .action row => db.recordAction row
  | .board row => db.recordCommunityCards row
  | .shown handId playerId holeCards handRank winnings =>
      db.recordShowdown handId playerId holeCards handRank winnings
  | .ended handId => db.endHand handId

namespace PokerGame

/-- A part of a call has only written under the id of the current hand. -/
structure Writes (game next : PokerGame) : Prop where
  current : next.currentHandId = game.currentHandId
  writes : ∃ writes : List HistoryWrite,
    (∀ write ∈ writes, game.currentHandId = some write.handId) ∧
      next.db = writes.foldl GameHistoryDB.write game.db

namespace Writes

variable {game middle next : PokerGame}

theorem nothing (db : next.db = game.db) (current : next.currentHandId = game.currentHandId) :
    Writes game next :=
  ⟨current, [], fun _ member => absurd member List.not_mem_nil, db⟩

theorem trans (first : Writes game middle) (second : Writes middle next) : Writes game next := by
  obtain ⟨same, earlier, filed, written⟩ := first
  obtain ⟨still, later, also, more⟩ := second
  refine ⟨still.trans same, earlier ++ later, ?_, ?_⟩
  · intro write member
    rcases List.mem_append.mp member with before | after
    · exact filed write before
    · rw [← same]
      exact also write after
  · rw [List.foldl_append, ← written, more]

theorem record {game next : PokerGame} (writes : Nat → List HistoryWrite)
    (own : ∀ handId, ∀ write ∈ writes handId, write.handId = handId)
    (db : next.db = game.recordInHand fun handId db => (writes handId).foldl GameHistoryDB.write db)
    (current : next.currentHandId = game.currentHandId) : Writes game next := by
  unfold recordInHand at db
  cases opened : game.currentHandId with
  | none =>
      rw [opened] at db
      exact Writes.nothing db current
  | some handId =>
      rw [opened] at db
      refine ⟨current, writes handId, ?_, db⟩
      intro write member
      rw [opened, own handId write member]

end Writes

theorem advance_writes (game : PokerGame) : Writes game game.advanceToNextPlayer := by
  obtain ⟨db, current, _⟩ := game.advance_db
  exact .nothing db current

theorem process_writes (game : PokerGame) (playerId : Int) (action : Action) (amount : Int) :
    Writes game (game.processPlayerAction playerId action amount).2 := by
  rcases game.processPlayerAction_cases playerId action amount with rejected |
    ⟨_, _, done, _, _, _, _, _, _, _, accepted⟩
  · rw [rejected]
    exact .nothing rfl rfl
  · rw [accepted]
    obtain ⟨seat, complete, frame⟩ :=
      (game.commitAction done playerId action amount).advance_check_frame
    rw [frame]
    exact .record (fun handId => [.action (game.actionRow done handId playerId action amount)])
      (by simp [HistoryWrite.handId, actionRow]) rfl rfl

/-- A street writes its board. -/
theorem dealStreet_writes {game dealt : PokerGame} {count : Nat} {phase : GamePhase}
    {describe : List Card → String} (returned : game.dealStreet count phase describe = .ok dealt) :
    Writes game dealt := by
  unfold dealStreet at returned
  split at returned
  · cases returned
  · split at returned
    · cases returned
    · rename_i drawn remaining _
      cases returned
      exact .record (fun handId => [.board ⟨handId, phase.value,
        (game.communityCards ++ drawn).map Card.str⟩]) (by simp [HistoryWrite.handId]) rfl rfl

theorem newRound_writes (game : PokerGame) : Writes game game.startNewBettingRound := by
  obtain ⟨_, _, frame, _⟩ := game.startNewBettingRound_spec
  rw [frame]
  exact .nothing rfl rfl

theorem nextPhase_writes {game next : PokerGame} {moved : Bool}
    (returned : game.advanceToNextPhase = .ok (moved, next)) : Writes game next := by
  have opened : ∀ {dealing : Except PyError PokerGame},
      (∀ dealt, dealing = .ok dealt → Writes game dealt) →
      dealing.map (fun dealt => (true, dealt.startNewBettingRound)) = .ok (moved, next) →
      Writes game next := by
    intro dealing writes same
    cases dealt : dealing with
    | error raised =>
        rw [dealt] at same
        cases same
    | ok street =>
        rw [dealt] at same
        cases same
        exact (writes street dealt).trans street.newRound_writes
  have street : ∀ {dealt : PokerGame} {count : Nat} {phase : GamePhase}
      {describe : List Card → String},
      dealStreet { game with currentPhase := phase } count phase describe = .ok dealt →
      Writes game dealt := by
    intro dealt count phase describe same
    have first : Writes game { game with currentPhase := phase } := .nothing rfl rfl
    exact first.trans (dealStreet_writes same)
  unfold advanceToNextPhase at returned
  split at returned
  · cases returned
    exact .nothing rfl rfl
  · split at returned
    · cases returned
      exact .nothing rfl rfl
    · unfold changePhase at returned
      split at returned
      · exact opened (fun dealt same => street same) returned
      · exact opened (fun dealt same => street same) returned
      · exact opened (fun dealt same => street same) returned
      · cases returned
        exact .nothing rfl rfl
      · cases returned
        exact .nothing rfl rfl
      · cases returned
        exact .nothing rfl rfl

theorem recordShowdowns_eq (db : GameHistoryDB) (handId : Nat) (winningsMap : List (Int × Int))
    (hands : List PlayerHand) :
    recordShowdowns db handId winningsMap hands =
      (hands.map fun shown => HistoryWrite.shown handId shown.player.id
        (shown.player.holeCards.map Card.str) shown.hand.str
        ((winningsMap.lookup shown.player.id).getD 0)).foldl GameHistoryDB.write db := by
  unfold recordShowdowns
  rw [List.foldl_map]
  rfl

theorem showdown_writes {game next : PokerGame} {result : ShowdownResult}
    (returned : game.conductShowdown = .ok (next, result)) : Writes game next := by
  unfold conductShowdown at returned
  split at returned
  · cases returned
    exact .nothing rfl rfl
  · cases returned
    exact .nothing rfl rfl
  · split at returned
    · cases returned
    · rename_i hands _
      cases returned
      refine .record (fun handId => (hands.map fun shown => HistoryWrite.shown handId
        shown.player.id (shown.player.holeCards.map Card.str) shown.hand.str
        (((game.settled hands).winningsMap.lookup shown.player.id).getD 0)) ++ [.ended handId])
        ?_ ?_ rfl
      · intro handId write member
        rcases List.mem_append.mp member with shown | closing
        · obtain ⟨_, _, rfl⟩ := List.mem_map.mp shown
          rfl
        · rw [List.mem_singleton.mp closing]
          rfl
      · dsimp only [contestedShowdown]
        unfold recordInHand
        cases game.currentHandId with
        | none => rfl
        | some handId =>
            dsimp only
            rw [recordShowdowns_eq, List.foldl_append]
            rfl

theorem postBlind_writes (game : PokerGame) (seat : Nat) (blind : Int)
    (mark : Player → Player) (name actionType : String) :
    Writes game (game.postBlind seat blind mark name actionType).2 := by
  unfold postBlind
  split
  · exact .nothing rfl rfl
  · rename_i player _
    exact .record (fun handId => [.action ⟨handId, "preflop", player.id, actionType,
      ((mark player).bet blind).1, game.pot + ((mark player).bet blind).1⟩])
      (by simp [HistoryWrite.handId]) rfl rfl

theorem postBlinds_writes (game : PokerGame) : Writes game game.postBlinds := by
  unfold postBlinds
  split
  · exact .nothing rfl rfl
  · have both : ∀ first small mark name kind second big other title sort,
        Writes game ((game.postBlind first small mark name kind).2.postBlind second big other
          title sort).2 := fun _ _ _ _ _ _ _ _ _ _ =>
      (game.postBlind_writes _ _ _ _ _).trans (postBlind_writes _ _ _ _ _ _)
    exact ⟨(both _ _ _ _ _ _ _ _ _ _).current, (both _ _ _ _ _ _ _ _ _ _).writes⟩

/-- A hand that starts writes its blinds under the hand before it, and then its own row. -/
theorem startNewHand_writes {game next : PokerGame} {shuffle : Shuffle}
    (returned : game.startNewHand shuffle = .ok next) :
    Writes game next ∨ ∃ (middle : PokerGame) (small big dealer : Int) (playerIds : List Int),
      Writes game middle ∧ next.db = (middle.db.startNewHand small big dealer playerIds).2 ∧
        next.currentHandId = some (middle.db.hands.length + 1) := by
  unfold startNewHand at returned
  dsimp only at returned
  split at returned
  · cases returned
    exact Or.inl (.nothing rfl rfl)
  · split at returned
    · cases returned
    · rename_i two dealt served
      cases returned
      obtain ⟨_, _, players, deck, _, _, rfl⟩ := dealHoleCards_rounds served
      have alive : (game.resetForHand shuffle).survivorSeats ≠ [] :=
        List.ne_nil_of_length_pos (by omega)
      obtain ⟨_, _, ready⟩ := moveDealerButton_spec alive
      have moved : Writes game (game.resetForHand shuffle).moveDealerButton := by
        rw [ready]
        exact .nothing rfl rfl
      have posted := moved.trans (postBlinds_writes _)
      obtain ⟨_, _, frame⟩ := setFirstActorPreflop_frame
        { (game.resetForHand shuffle).moveDealerButton.postBlinds with
          players := players, deck := deck }
      rw [frame]
      generalize (game.resetForHand shuffle).moveDealerButton.postBlinds = middle at posted
      exact Or.inr ⟨middle, _, _, _, _, posted, rfl, rfl⟩

theorem callStep_writes {game next : PokerGame} {call : Call}
    (taken : game.callStep call = some next) :
    Writes game next ∨ ∃ (middle : PokerGame) (small big dealer : Int) (playerIds : List Int),
      Writes game middle ∧ next.db = (middle.db.startNewHand small big dealer playerIds).2 ∧
        next.currentHandId = some (middle.db.hands.length + 1) := by
  cases call with
  | startNewHand shuffle => exact startNewHand_writes (callStep_newHand taken)
  | processPlayerAction playerId action amount =>
      cases taken
      exact Or.inl (game.process_writes playerId action amount)
  | advanceToNextPlayer =>
      cases taken
      exact Or.inl game.advance_writes
  | advanceToNextPhase =>
      obtain ⟨_, returned⟩ := callStep_nextPhase taken
      exact Or.inl (nextPhase_writes returned)
  | conductShowdown =>
      obtain ⟨_, returned⟩ := callStep_showdown taken
      exact Or.inl (showdown_writes returned)

end PokerGame

/-! ### The tables a run leaves -/

namespace GameHistoryDB

/-- The tables of a game: hands are numbered from 1 on, and every table is in their order, with
one board for each phase of a hand and one showdown row for each of its players. -/
structure InOrder (db : GameHistoryDB) : Prop where
  ids : db.hands.map HandRow.handId = List.range' 1 db.hands.length
  actions : Grouping.Filed ActionRow.handId db.hands.length db.actions
  boards : Grouping.Filed CommunityRow.handId db.hands.length db.communityCards
  shown : Grouping.Filed ShowdownRow.handId db.hands.length db.showdownResults
  boardKeys : (db.communityCards.map fun row => (row.handId, row.phase)).Nodup
  shownKeys : (db.showdownResults.map fun row => (row.handId, row.playerId)).Nodup

theorem inOrder_empty : InOrder {} :=
  ⟨rfl, .nil _ _, .nil _ _, .nil _ _, List.nodup_nil, List.nodup_nil⟩

variable {db : GameHistoryDB}

theorem write_hands (db : GameHistoryDB) (write : HistoryWrite) :
    (db.write write).hands.map HandRow.handId = db.hands.map HandRow.handId := by
  cases write with
  | action row => rfl
  | board row => rfl
  | shown handId playerId holeCards handRank winnings => rfl
  | ended handId =>
      change (db.hands.map _).map HandRow.handId = _
      rw [List.map_map]
      apply List.map_congr_left
      intro row _
      rw [Function.comp_apply]
      split <;> rfl

theorem write_length (db : GameHistoryDB) (write : HistoryWrite) :
    (db.write write).hands.length = db.hands.length := by
  simpa using congrArg List.length (db.write_hands write)

theorem writes_length (writes : List HistoryWrite) (db : GameHistoryDB) :
    (writes.foldl GameHistoryDB.write db).hands.length = db.hands.length := by
  induction writes generalizing db with
  | nil => rfl
  | cons write rest ih =>
      rw [List.foldl_cons, ih, db.write_length]

theorem nodup_replace {α κ : Type} {key : α → κ} {rows : List α} {keep : α → Bool} (row : α)
    (distinct : (rows.map key).Nodup) (others : ∀ old, keep old = true → key old ≠ key row) :
    ((rows.filter keep ++ [row]).map key).Nodup := by
  rw [List.map_append, List.nodup_append]
  refine ⟨distinct.sublist (List.Sublist.map key List.filter_sublist), by simp, ?_⟩
  intro old member new single
  obtain ⟨other, kept, rfl⟩ := List.mem_map.mp member
  obtain rfl : new = key row := by simpa using single
  exact others other (List.mem_filter.mp kept).2

theorem InOrder.write (order : db.InOrder) {write : HistoryWrite} (opened : 1 ≤ db.hands.length)
    (last : write.handId = db.hands.length) : (db.write write).InOrder := by
  have size := db.write_length write
  constructor
  · rw [db.write_hands, order.ids, size]
  · rw [size]
    cases write with
    | action row =>
        refine order.actions.append opened fun item member => ?_
        rw [List.mem_singleton.mp member]
        exact last
    | board row => exact order.actions
    | shown handId playerId holeCards handRank winnings => exact order.actions
    | ended handId => exact order.actions
  · rw [size]
    cases write with
    | action row => exact order.boards
    | board row =>
        refine (order.boards.filter _).append opened fun item member => ?_
        rw [List.mem_singleton.mp member]
        exact last
    | shown handId playerId holeCards handRank winnings => exact order.boards
    | ended handId => exact order.boards
  · rw [size]
    cases write with
    | action row => exact order.shown
    | board row => exact order.shown
    | shown handId playerId holeCards handRank winnings =>
        refine (order.shown.filter _).append opened fun item member => ?_
        rw [List.mem_singleton.mp member]
        exact last
    | ended handId => exact order.shown
  · cases write with
    | action row => exact order.boardKeys
    | board row =>
        refine nodup_replace row order.boardKeys fun old kept same => ?_
        rw [decide_eq_true_eq] at kept
        exact kept (Prod.mk.inj same)
    | shown handId playerId holeCards handRank winnings => exact order.boardKeys
    | ended handId => exact order.boardKeys
  · cases write with
    | action row => exact order.shownKeys
    | board row => exact order.shownKeys
    | shown handId playerId holeCards handRank winnings =>
        refine nodup_replace _ order.shownKeys fun old kept same => ?_
        rw [decide_eq_true_eq] at kept
        exact kept (Prod.mk.inj same)
    | ended handId => exact order.shownKeys

theorem InOrder.startNewHand (order : db.InOrder) (small big dealer : Int)
    (playerIds : List Int) : (db.startNewHand small big dealer playerIds).2.InOrder := by
  have size : (db.startNewHand small big dealer playerIds).2.hands.length =
      db.hands.length + 1 := by simp [GameHistoryDB.startNewHand]
  constructor
  · rw [size, List.range'_1_concat, ← order.ids]
    simp [GameHistoryDB.startNewHand, Nat.add_comm]
  · rw [size]
    exact order.actions.grow (Nat.le_succ _)
  · rw [size]
    exact order.boards.grow (Nat.le_succ _)
  · rw [size]
    exact order.shown.grow (Nat.le_succ _)
  · exact order.boardKeys
  · exact order.shownKeys

theorem getHandHistory_write (db : GameHistoryDB) (write : HistoryWrite) {hand : Nat}
    (apart : hand ≠ write.handId) :
    (db.write write).getHandHistory hand = db.getHandHistory hand := by
  have other : (write.handId == hand) = false := beq_eq_false_iff_ne.mpr apart.symm
  unfold getHandHistory
  cases write with
  | action row =>
      change (row.handId == hand) = false at other
      simp [GameHistoryDB.write, recordAction, List.filter_append, other]
  | board row =>
      change (row.handId == hand) = false at other
      have kept : (db.communityCards.filter fun old =>
          decide (¬ (old.handId = row.handId ∧ old.phase = row.phase))).filter
            (fun board => board.handId == hand) =
          db.communityCards.filter fun board => board.handId == hand := by
        rw [List.filter_filter]
        apply List.filter_congr
        intro old _
        by_cases same : old.handId = hand
        · simp [same, show ¬ hand = row.handId from apart]
        · simp [same]
      simp only [GameHistoryDB.write, recordCommunityCards, List.filter_append, kept,
        List.filter_cons, other, Bool.false_eq_true, ↓reduceIte, List.filter_nil, List.append_nil]
  | shown handId playerId holeCards handRank winnings =>
      change (handId == hand) = false at other
      have kept : (db.showdownResults.filter fun old =>
          decide (¬ (old.handId = handId ∧ old.playerId = playerId))).filter
            (fun shown => shown.handId == hand) =
          db.showdownResults.filter fun shown => shown.handId == hand := by
        rw [List.filter_filter]
        apply List.filter_congr
        intro old _
        by_cases same : old.handId = hand
        · simp [same, show ¬ hand = handId from apart]
        · simp [same]
      simp only [GameHistoryDB.write, recordShowdown, List.filter_append, kept,
        List.filter_cons, other, Bool.false_eq_true, ↓reduceIte, List.filter_nil, List.append_nil]
  | ended handId =>
      have found : ((db.hands.map fun row => if row.handId = handId then
          { row with ended := true } else row).find? fun row => row.handId == hand) =
          db.hands.find? fun row => row.handId == hand := by
        induction db.hands with
        | nil => rfl
        | cons row rest ih =>
            rw [List.map_cons, List.find?_cons, List.find?_cons, ih]
            by_cases closed : row.handId = handId
            · have missed : (handId == hand) = false := other
              simp [closed, missed]
            · simp [closed]
      simp only [GameHistoryDB.write, endHand, found]

theorem getHandHistory_writes {hand : Nat} (writes : List HistoryWrite)
    (apart : ∀ write ∈ writes, hand ≠ write.handId) (db : GameHistoryDB) :
    (writes.foldl GameHistoryDB.write db).getHandHistory hand = db.getHandHistory hand := by
  induction writes generalizing db with
  | nil => rfl
  | cons write rest ih =>
      obtain ⟨here, later⟩ := List.forall_mem_cons.mp apart
      rw [List.foldl_cons, ih later, db.getHandHistory_write write here]

theorem writes_actions (writes : List HistoryWrite) (db : GameHistoryDB) :
    db.actions <+: (writes.foldl GameHistoryDB.write db).actions := by
  induction writes generalizing db with
  | nil => exact List.prefix_refl _
  | cons write rest ih =>
      refine List.IsPrefix.trans ?_ (ih (db.write write))
      cases write with
      | action row => exact List.prefix_append _ _
      | board row => exact List.prefix_refl _
      | shown handId playerId holeCards handRank winnings => exact List.prefix_refl _
      | ended handId => exact List.prefix_refl _

theorem getHandHistory_startNewHand (db : GameHistoryDB) (small big dealer : Int)
    (playerIds : List Int) {hand : Nat} (past : hand ≤ db.hands.length) :
    (db.startNewHand small big dealer playerIds).2.getHandHistory hand =
      db.getHandHistory hand := by
  have other : (db.hands.length + 1 == hand) = false := by
    rw [beq_eq_false_iff_ne]
    omega
  simp [getHandHistory, GameHistoryDB.startNewHand, List.find?_append, other]

theorem InOrder.writes (order : db.InOrder) (opened : 1 ≤ db.hands.length)
    (writes : List HistoryWrite) (last : ∀ write ∈ writes, write.handId = db.hands.length) :
    (writes.foldl GameHistoryDB.write db).InOrder := by
  induction writes generalizing db with
  | nil => exact order
  | cons write rest ih =>
      obtain ⟨here, later⟩ := List.forall_mem_cons.mp last
      have size := db.write_length write
      exact ih (order.write opened here) (by rwa [size])
        fun next member => (later next member).trans size.symm

theorem getHandHistory_of_row {row : HandRow} {hand : Nat}
    (found : db.hands.find? (fun row => row.handId == hand) = some row) :
    ∃ history, db.getHandHistory hand = some history ∧ history.hand = row ∧
      history.actions = (db.actions.filter fun action => action.handId == hand) ∧
      history.showdownResults.Perm (db.showdownResults.filter fun shown =>
        shown.handId == hand) := by
  unfold getHandHistory
  rw [found]
  exact ⟨_, rfl, rfl, rfl, List.perm_insertionSort _ _⟩

theorem InOrder.find_row (order : db.InOrder) {hand : Nat} (first : 1 ≤ hand)
    (last : hand ≤ db.hands.length) :
    ∃ row, db.hands.find? (fun row => row.handId == hand) = some row ∧
      db.hands[hand - 1]? = some row ∧ row.handId = hand := by
  have inside : hand - 1 < db.hands.length := by omega
  have number : ∀ (place : Nat) (there : place < db.hands.length),
      db.hands[place].handId = place + 1 := by
    intro place there
    have same := congrArg (fun ids => ids[place]?) order.ids
    simp only [List.getElem?_map, List.getElem?_eq_getElem there, Option.map_some,
      List.getElem?_range' there] at same
    have := Option.some.inj same
    omega
  refine ⟨db.hands[hand - 1], ?_, List.getElem?_eq_getElem inside, ?_⟩
  · rw [List.find?_eq_some_iff_getElem]
    refine ⟨?_, hand - 1, inside, rfl, ?_⟩
    · rw [number _ inside, beq_iff_eq]
      omega
    · intro other before
      have := number other (Nat.lt_trans before inside)
      simp only [Bool.not_eq_true', beq_eq_false_iff_ne]
      omega
  · rw [number _ inside]
    omega

def histories (db : GameHistoryDB) : List HandHistory :=
  (List.range' 1 db.hands.length).filterMap db.getHandHistory

theorem InOrder.range_histories (order : db.InOrder) :
    (List.range' 1 db.hands.length).map db.getHandHistory = db.histories.map some := by
  unfold histories
  rw [List.map_filterMap, ← List.filterMap_eq_map]
  apply List.filterMap_congr
  intro hand member
  rw [List.mem_range'_1] at member
  obtain ⟨row, found, _, _⟩ := order.find_row member.1 (by omega)
  obtain ⟨history, answer, _⟩ := getHandHistory_of_row found
  rw [Function.comp_apply, answer]
  rfl

end GameHistoryDB

/-- The tables of a game are in order, and its hand is the last one. -/
structure PokerGame.Filing (game : PokerGame) : Prop where
  order : game.db.InOrder
  current : game.currentHandId =
    if game.db.hands.length = 0 then none else some game.db.hands.length

namespace PokerGame.Filing

variable {game next : PokerGame}

theorem fresh (empty : game.db = {}) (unnumbered : game.currentHandId = none) :
    game.Filing := by
  constructor
  · rw [empty]
    exact GameHistoryDB.inOrder_empty
  · rw [empty, unnumbered]
    rfl

theorem writes (filing : game.Filing) (written : Writes game next) :
    next.Filing ∧ next.db.hands.length = game.db.hands.length ∧
      game.db.actions <+: next.db.actions ∧ ∀ hand, hand < game.db.hands.length →
        next.db.getHandHistory hand = game.db.getHandHistory hand := by
  obtain ⟨same, writes, filed, tables⟩ := written
  have grown := GameHistoryDB.writes_actions writes game.db
  rw [← tables] at grown
  by_cases none : game.db.hands.length = 0
  · have silent : writes = [] := by
      cases writes with
      | nil => rfl
      | cons write rest =>
          have opened := filed write (List.mem_cons_self ..)
          rw [filing.current, if_pos none] at opened
          cases opened
    rw [silent, List.foldl_nil] at tables
    refine ⟨⟨?_, ?_⟩, ?_, grown, fun hand _ => by rw [tables]⟩
    · rw [tables]
      exact filing.order
    · rw [same, tables]
      exact filing.current
    · rw [tables]
  · have last : ∀ write ∈ writes, write.handId = game.db.hands.length := by
      intro write member
      have opened := filed write member
      rw [filing.current, if_neg none] at opened
      exact (Option.some.inj opened).symm
    have order := filing.order.writes (by omega) writes last
    have size := GameHistoryDB.writes_length writes game.db
    rw [← tables] at order size
    refine ⟨⟨order, ?_⟩, size, grown, ?_⟩
    · rw [same, size]
      exact filing.current
    · intro hand past
      rw [tables]
      refine GameHistoryDB.getHandHistory_writes writes (fun write member => ?_) game.db
      rw [last write member]
      omega

theorem step (filing : game.Filing) {call : Call} (taken : game.callStep call = some next) :
    next.Filing ∧ game.db.hands.length ≤ next.db.hands.length ∧
      game.db.actions <+: next.db.actions ∧ ∀ hand, hand < game.db.hands.length →
        next.db.getHandHistory hand = game.db.getHandHistory hand := by
  rcases callStep_writes taken with written |
    ⟨middle, small, big, dealer, playerIds, written, tables, current⟩
  · obtain ⟨kept, size, grown, frozen⟩ := filing.writes written
    exact ⟨kept, Nat.le_of_eq size.symm, grown, frozen⟩
  · obtain ⟨kept, size, grown, frozen⟩ := filing.writes written
    have more : next.db.hands.length = middle.db.hands.length + 1 := by
      rw [tables]
      simp [GameHistoryDB.startNewHand]
    refine ⟨⟨?_, ?_⟩, by omega, ?_, ?_⟩
    · rw [tables]
      exact kept.order.startNewHand small big dealer playerIds
    · rw [current, more, if_neg (Nat.succ_ne_zero _)]
    · rw [tables]
      exact grown
    · intro hand past
      rw [tables, GameHistoryDB.getHandHistory_startNewHand _ _ _ _ _ (by omega)]
      exact frozen hand past

theorem run (filing : game.Filing) {calls : List Call} {final : PokerGame}
    (reached : Runs.run callStep game calls = some final) :
    final.Filing ∧ game.db.hands.length ≤ final.db.hands.length ∧
      game.db.actions <+: final.db.actions ∧ ∀ hand, hand < game.db.hands.length →
        final.db.getHandHistory hand = game.db.getHandHistory hand := by
  refine Runs.run_invariant_always (fun state => state.Filing ∧
    game.db.hands.length ≤ state.db.hands.length ∧ game.db.actions <+: state.db.actions ∧
      ∀ hand, hand < game.db.hands.length →
        state.db.getHandHistory hand = game.db.getHandHistory hand) ?_
    ⟨filing, Nat.le_refl _, List.prefix_refl _, fun _ _ => rfl⟩ reached
  rintro state call next ⟨here, larger, longer, frozen⟩ taken
  obtain ⟨later, more, grown, kept⟩ := here.step taken
  refine ⟨later, Nat.le_trans larger more, longer.trans grown, fun hand past => ?_⟩
  rw [kept hand (by omega), frozen hand past]

end PokerGame.Filing

/-- The history of a hand that is over cannot change: whatever calls follow, `get_hand_history`
answers the same for every hand before the last one, and the actions of the last one are only
added to. -/
theorem past_histories_frozen {game middle final : PokerGame} {calls later : List Call}
    (empty : game.db = {}) (unnumbered : game.currentHandId = none)
    (reached : Runs.run PokerGame.callStep game calls = some middle)
    (continued : Runs.run PokerGame.callStep middle later = some final) :
    (∀ hand, hand < middle.db.hands.length →
      final.db.getHandHistory hand = middle.db.getHandHistory hand) ∧
    ∀ hand, 1 ≤ hand → hand ≤ middle.db.hands.length → ∃ before after,
      middle.db.getHandHistory hand = some before ∧ before.hand.handId = hand ∧
        final.db.getHandHistory hand = some after ∧ after.hand.handId = hand ∧
          before.actions <+: after.actions := by
  obtain ⟨filing, _⟩ := (PokerGame.Filing.fresh empty unnumbered).run reached
  obtain ⟨still, larger, grown, frozen⟩ := filing.run continued
  refine ⟨frozen, fun hand first last => ?_⟩
  obtain ⟨row, found, _, number⟩ := filing.order.find_row first last
  obtain ⟨other, later, _, same⟩ := still.order.find_row first (Nat.le_trans last larger)
  obtain ⟨before, answer, about, actions, _⟩ := GameHistoryDB.getHandHistory_of_row found
  obtain ⟨after, reply, its, more, _⟩ := GameHistoryDB.getHandHistory_of_row later
  refine ⟨before, after, answer, by rw [about, number], reply, by rw [its, same], ?_⟩
  rw [actions, more]
  exact grown.filter _

/-- The first of two hands stays as it was while the second is played. -/
theorem past_histories_frozen_two_hands :
    ∃ middle final, Runs.run PokerGame.callStep headsUp.game
        [.startNewHand .unshuffled, .processPlayerAction 1 .fold 0, .conductShowdown,
          .startNewHand .unshuffled] = some middle ∧
      Runs.run PokerGame.callStep middle
        [.processPlayerAction 0 .call 0, .processPlayerAction 1 .check 0, .advanceToNextPhase] =
          some final ∧
      final.db.getHandHistory 1 = middle.db.getHandHistory 1 := by
  have reached : ∃ middle, Runs.run PokerGame.callStep headsUp.game
      [.startNewHand .unshuffled, .processPlayerAction 1 .fold 0, .conductShowdown,
        .startNewHand .unshuffled] = some middle ∧ middle.db.hands.length = 2 ∧
      ∃ final, Runs.run PokerGame.callStep middle
        [.processPlayerAction 0 .call 0, .processPlayerAction 1 .check 0, .advanceToNextPhase] =
          some final := ⟨_, rfl, rfl, _, rfl⟩
  obtain ⟨middle, played, two, final, continued⟩ := reached
  have frozen := (past_histories_frozen (rfl : headsUp.game.db = {}) rfl played continued).1
  exact ⟨middle, final, played, continued, frozen 1 (by omega)⟩

end Holdem
