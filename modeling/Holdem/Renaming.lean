import Holdem.CardFlow

set_option autoImplicit false

namespace Holdem

/-- A call in terms of seats: a player acts from its seat, under its own id. -/
inductive SeatCall
  | startNewHand (shuffle : Shuffle)
  | act (seat : Nat) (action : Action) (amount : Int)
  | advanceToNextPlayer
  | advanceToNextPhase
  | conductShowdown

/-- What can be seen of a player without its name. -/
structure SeatRow where
  chips : Int
  currentBet : Int
  totalBetThisHand : Int
  status : PlayerStatus
  listed : List AvailableAction
deriving DecidableEq, Repr

/-- What can be seen of a table without the players' names. -/
structure SeatView where
  seats : List SeatRow
  phase : GamePhase
  turn : Nat
  pot : Int
  currentBet : Int
  roundComplete : Bool
deriving DecidableEq, Repr

namespace PokerGame

def seatView (game : PokerGame) : SeatView :=
  { seats := game.players.map fun player =>
      ⟨player.chips, player.currentBet, player.totalBetThisHand, player.status,
        game.getAvailableActions player.id⟩
    phase := game.currentPhase
    turn := game.currentPlayerIndex
    pot := game.pot
    currentBet := game.currentBet
    roundComplete := game.bettingRoundComplete }

/-- A call by seat. Nobody acts from a seat that is not there. -/
def callOfSeat (game : PokerGame) : SeatCall → Option Call
  | .startNewHand shuffle => some (.startNewHand shuffle)
  | .act seat action amount =>
      (game.players[seat]?).map fun player => .processPlayerAction player.id action amount
  | .advanceToNextPlayer => some .advanceToNextPlayer
  | .advanceToNextPhase => some .advanceToNextPhase
  | .conductShowdown => some .conductShowdown

def accepted (game : PokerGame) (call : Call) : Option Bool :=
  match game.perform call with
  | .ok (.accepted ok, _) => some ok
  | _ => none

/-- A sequence of calls by seat: what each answered, and the table after the last. -/
def playSeats : PokerGame → List SeatCall → List (Option Bool) × PokerGame
  | game, [] => ([], game)
  | game, call :: rest =>
      match game.callOfSeat call with
      | none => game.playSeats rest
      | some call =>
          let later := (game.afterCall call).playSeats rest
          (game.accepted call :: later.1, later.2)

end PokerGame

def Roster.bySeat (roster : Roster) : Roster :=
  { roster with
    seats := roster.seats.mapIdx fun seat entry => ((seat : Int), entry.2)
    seats_ge := by
      rw [List.length_mapIdx]
      exact roster.seats_ge
    seats_le := by
      rw [List.length_mapIdx]
      exact roster.seats_le }

namespace PokerGame

theorem playSeats_append (game : PokerGame) (first second : List SeatCall) :
    game.playSeats (first ++ second) =
      ((game.playSeats first).1 ++ ((game.playSeats first).2.playSeats second).1,
        ((game.playSeats first).2.playSeats second).2) := by
  induction first generalizing game with
  | nil => rfl
  | cons call rest ih =>
      cases found : game.callOfSeat call with
      | none => simp only [List.cons_append, playSeats, found, ih game]
      | some made => simp only [List.cons_append, playSeats, found, ih (game.afterCall made)]

theorem advance_next {game : PokerGame} (active : ∀ seat < game.players.length,
      game.isActive seat = true)
    (inside : game.currentPlayerIndex + 1 < game.players.length) :
    game.advanceToNextPlayer =
      { game with currentPlayerIndex := game.currentPlayerIndex + 1 } := by
  have found : Clockwise.search game.players.length game.isActive game.currentPlayerIndex
      game.players.length = some (game.currentPlayerIndex + 1) := by
    have nearest : Clockwise.place game.players.length game.currentPlayerIndex
        (game.currentPlayerIndex + 1) = 0 := by
      rw [Clockwise.place_eq (by omega) inside, if_pos (by omega)]
      omega
    apply (Clockwise.search_eq_some_iff (by omega) (Nat.le_refl _)).mpr
    refine ⟨inside, active _ inside, by omega, ?_⟩
    intro other _ _
    omega
  unfold advanceToNextPlayer
  dsimp only
  rw [found]

/-- Passing the turn on from the first seat reaches any seat of a table that has not
started. -/
theorem pass_to_seat {game : PokerGame} (active : ∀ seat < game.players.length,
      game.isActive seat = true) (first : game.currentPlayerIndex = 0) {seat : Nat}
    (inside : seat < game.players.length) :
    (game.playSeats (List.replicate seat .advanceToNextPlayer)).2 =
      { game with currentPlayerIndex := seat } := by
  induction seat with
  | zero =>
      have same : { game with currentPlayerIndex := 0 } = game := by rw [← first]
      rw [same]
      rfl
  | succ seat ih =>
      rw [List.replicate_succ', playSeats_append, ih (by omega)]
      exact advance_next active inside

/-- A fold by the player of the seat whose turn it is, in a table where everyone is `ACTIVE`,
is accepted exactly when that player's id is its seat. -/
theorem fold_accepted_iff (game : PokerGame)
    (active : ∀ player ∈ game.players, player.status = .active) {player : Player}
    (here : game.players[game.currentPlayerIndex]? = some player) :
    (game.playSeats [.act game.currentPlayerIndex .fold 0]).1 =
      [some (decide (player.id = game.currentPlayerIndex))] := by
  have called : game.callOfSeat (.act game.currentPlayerIndex .fold 0) =
      some (.processPlayerAction player.id .fold 0) := by
    simp only [callOfSeat, here, Option.map_some]
  simp only [playSeats, called, List.cons.injEq, and_true]
  by_cases same : player.id = game.currentPlayerIndex
  · have found : (game.getPlayer player.id).isSome = true := by
      unfold getPlayer
      rw [List.find?_isSome]
      exact ⟨player, List.mem_of_getElem? here, by simp⟩
    obtain ⟨first, known⟩ := Option.isSome_iff_exists.mp found
    have acts : first.status = .active := active first (List.mem_of_find?_eq_some known)
    rw [decide_eq_true same]
    simp only [accepted, perform, processPlayerAction]
    rw [if_neg (by simpa using same), known]
    dsimp only
    rw [if_neg (by simpa using acts)]
    rfl
  · rw [decide_eq_false same]
    simp only [accepted, perform, processPlayerAction]
    rw [if_pos same]

end PokerGame

theorem Roster.active (roster : Roster) :
    ∀ player ∈ roster.game.players, player.status = .active := by
  intro player member
  obtain ⟨seat, _, rfl⟩ := List.mem_map.mp member
  rfl

/-- The last answer when the turn is passed to a seat and its player folds there. -/
theorem Roster.fold_at_seat (roster : Roster) {seat : Nat} {entry : Int × Int}
    (here : roster.seats[seat]? = some entry) :
    (roster.game.playSeats (List.replicate seat .advanceToNextPlayer ++
      [.act seat .fold 0])).1.getLast? = some (some (decide (entry.1 = seat))) := by
  have size : roster.game.players.length = roster.seats.length := List.length_map ..
  have inside : seat < roster.game.players.length := by
    rw [size]
    exact (List.getElem?_eq_some_iff.mp here).1
  have ready : ∀ other < roster.game.players.length, roster.game.isActive other = true := by
    intro other within
    apply PokerGame.isActive_iff.mpr
    exact ⟨_, List.getElem?_eq_getElem within, roster.active _ (List.getElem_mem within)⟩
  have there : roster.game.players[seat]? = some { id := entry.1, chips := entry.2 } := by
    simp only [Roster.game, List.getElem?_map, here, Option.map_some]
  have answer := PokerGame.fold_accepted_iff { roster.game with currentPlayerIndex := seat }
    roster.active there
  rw [PokerGame.playSeats_append, PokerGame.pass_to_seat ready rfl inside]
  dsimp only at answer ⊢
  rw [answer, List.getLast?_concat]

/-- The players of a table can play under their own ids exactly as they would under the
numbers of their seats only when these are their ids. -/
theorem renaming_changes_nothing_iff (roster : Roster) :
    (∀ calls, (roster.game.playSeats calls).1 = (roster.bySeat.game.playSeats calls).1 ∧
        (roster.game.playSeats calls).2.seatView =
          (roster.bySeat.game.playSeats calls).2.seatView) ↔
      ∀ (seat : Nat) (entry : Int × Int), roster.seats[seat]? = some entry → entry.1 = seat := by
  constructor
  · intro agree seat entry here
    have renamed : roster.bySeat.seats[seat]? = some ((seat : Int), entry.2) := by
      simp [Roster.bySeat, here]
    have mine := roster.fold_at_seat here
    have theirs := roster.bySeat.fold_at_seat renamed
    have same := (agree (List.replicate seat SeatCall.advanceToNextPlayer ++
      [SeatCall.act seat Action.fold 0])).1
    rw [same, theirs] at mine
    simpa using mine
  · intro named calls
    have same : roster.bySeat.seats = roster.seats := by
      apply List.ext_getElem?
      intro seat
      simp only [Roster.bySeat, List.getElem?_mapIdx]
      cases here : roster.seats[seat]? with
      | none => rfl
      | some entry =>
          rw [Option.map_some, ← named seat entry here]
    have game : roster.bySeat.game = roster.game := by
      unfold Roster.game
      rw [same]
      rfl
    rw [game]
    exact ⟨rfl, rfl⟩

def numberedFromOne : Roster where
  smallBlind := 10
  bigBlind := 20
  seats := [(1, 1000), (2, 1000), (3, 1000)]
  button := 0
  deck := .unshuffled
  seats_ge := by decide
  seats_le := by decide

/-- The first to act in the first hand folds: accepted under the number of the seat, refused
under the player's own id. -/
theorem fold_refused_under_own_id :
    (numberedFromOne.game.playSeats [.startNewHand .unshuffled, .act 1 .fold 0]).1 =
        [none, some false] ∧
      (numberedFromOne.bySeat.game.playSeats [.startNewHand .unshuffled, .act 1 .fold 0]).1 =
        [none, some true] :=
  ⟨rfl, rfl⟩

end Holdem
