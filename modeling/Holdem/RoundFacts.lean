import Holdem.BetLevel

set_option autoImplicit false

namespace Holdem

namespace PokerGame

/-- The last test of `_check_betting_round_complete`, once all `ACTIVE` bets are equal. -/
def atFinish (game : PokerGame) : Bool :=
  if game.lastRaiserIndex.isSome && game.hasBetOrRaiseThisRound then true
  else
    match game.lastRaiserIndex with
    | none => some game.currentPlayerIndex == game.getFirstActorForPhase
    | some raiser =>
        if !game.isActive raiser then true
        else some game.currentPlayerIndex == game.getNextActivePlayerFrom raiser

/-- Every `ACTIVE` player has bet exactly the current bet. -/
def AllMatched (game : PokerGame) : Prop :=
  ∀ (seat : Nat) (player : Player), game.players[seat]? = some player →
    player.status = .active → player.currentBet = game.currentBet

def activePlayers (game : PokerGame) : List Player :=
  game.players.filter fun player => player.status == .active

theorem mem_activePlayers {game : PokerGame} {player : Player} :
    player ∈ game.activePlayers ↔ player ∈ game.players ∧ player.status = .active := by
  simp [activePlayers]

theorem allMatched_iff {game : PokerGame} :
    game.AllMatched ↔
      (game.activePlayers.all fun player => player.currentBet == game.currentBet) = true := by
  simp only [AllMatched, List.all_eq_true, mem_activePlayers, beq_iff_eq]
  constructor
  · rintro matched player ⟨member, active⟩
    obtain ⟨seat, here⟩ := List.mem_iff_getElem?.mp member
    exact matched seat player here active
  · intro matched seat player here active
    exact matched player ⟨List.mem_of_getElem? here, active⟩

/-- With matched bets a round of fewer than two `ACTIVE` players is over, and a larger one
is when the turn stands at the finish. -/
theorem roundIsOver_of_matched {game : PokerGame} (matched : game.AllMatched)
    (finish : 2 ≤ game.activePlayers.length → game.atFinish = true) :
    game.roundIsOver = true := by
  have all := allMatched_iff.mp matched
  unfold roundIsOver
  dsimp only
  split
  · rfl
  · rw [← activePlayers]
    split
    · rfl
    · rename_i single listed
      rw [listed] at all
      simp only [List.all_cons, List.all_nil, Bool.and_true, beq_iff_eq] at all
      simp [all]
    · rename_i listed _ several
      have two : 2 ≤ game.activePlayers.length := by
        rcases shape : game.activePlayers with _ | ⟨first, _ | ⟨second, rest⟩⟩
        · exact absurd shape (by assumption)
        · exact absurd shape (several first)
        · simp
      have equal : ¬ (!(game.activePlayers.all fun player =>
          player.currentBet == game.currentBet)) = true := by
        rw [all]
        decide
      exact (if_neg equal).trans (finish two)

/-- A round that closes over two or more `ACTIVE` players has matched bets and stands at
the finish. -/
theorem matched_of_roundIsOver {game : PokerGame} (ended : game.roundIsOver = true)
    (two : 2 ≤ game.activePlayers.length) : game.AllMatched ∧ game.atFinish = true := by
  rw [allMatched_iff]
  unfold roundIsOver at ended
  dsimp only at ended
  rw [← activePlayers, if_neg (by omega)] at ended
  split at ended
  · rename_i empty
    rw [empty] at two
    cases two
  · rename_i single listed
    rw [listed] at two
    simp at two
  · split at ended
    · cases ended
    · rename_i equal
      have equal : ¬ (!(game.activePlayers.all fun player =>
          player.currentBet == game.currentBet)) = true := equal
      exact ⟨by rwa [Bool.not_eq_true', Bool.not_eq_false] at equal, ended⟩

theorem nobody_of_search {game : PokerGame} {start : Nat} (inside : start < game.players.length)
    (missing : Clockwise.search game.players.length game.isActive start game.players.length =
      none) (seat : Nat) : game.isActive seat = false := by
  by_contra acts
  have acts : game.isActive seat = true := by simpa using acts
  have far := (Clockwise.search_eq_none_iff inside (Nat.le_refl _)).mp missing seat
    (isActive_lt acts) acts
  have near := Clockwise.place_lt inside seat
  omega

/-- The table after an accepted action with the turn at a seat. -/
def turnedTo (game : PokerGame) (done : Performed) (playerId : Int) (action : Action)
    (amount : Int) (seat : Nat) : PokerGame :=
  { game.commitAction done playerId action amount with currentPlayerIndex := seat }

section AfterAction

variable {table : Table} {game : PokerGame} {player : Player} {action : Action} {amount : Int}
  {done : Performed}

/-- After an accepted action either nobody is `ACTIVE` and the round closes, or the turn is
at the next `ACTIVE` seat and the round closes when it is over there. -/
theorem afterAction_cases (game : PokerGame) (done : Performed) (playerId : Int)
    (action : Action) (amount : Int)
    (inside : game.currentPlayerIndex <
      (game.commitAction done playerId action amount).players.length) :
    let commit := game.commitAction done playerId action amount
    ((∀ seat, commit.isActive seat = false) ∧
        (game.afterAction done playerId action amount).bettingRoundComplete = true) ∨
      ∃ seat, Clockwise.search commit.players.length commit.isActive game.currentPlayerIndex
          commit.players.length = some seat ∧
        game.afterAction done playerId action amount =
          (game.turnedTo done playerId action amount seat).checkBettingRoundComplete := by
  intro commit
  have shape : game.afterAction done playerId action amount =
      commit.advanceToNextPlayer.checkBettingRoundComplete := rfl
  rw [shape]
  unfold advanceToNextPlayer
  dsimp only
  split
  · rename_i seat found
    exact Or.inr ⟨seat, found, rfl⟩
  · rename_i missing
    refine Or.inl ⟨nobody_of_search inside missing, ?_⟩
    unfold checkBettingRoundComplete
    split <;> rfl

theorem checked_complete (game : PokerGame) :
    game.checkBettingRoundComplete.bettingRoundComplete =
      (game.bettingRoundComplete || game.roundIsOver) := by
  unfold checkBettingRoundComplete
  split
  · rename_i ended
    simp [ended]
  · rename_i going
    simp [going]

theorem checked_eq {game : PokerGame}
    (running : game.checkBettingRoundComplete.bettingRoundComplete = false) :
    game.checkBettingRoundComplete = game := by
  rw [checked_complete, Bool.or_eq_false_iff] at running
  unfold checkBettingRoundComplete
  rw [if_neg (by simp [running.2])]

theorem commit_seat (seated : Seated table game) (turn : game.Turn player)
    (performed : game.performAction player player.id action amount = some done) {seat : Nat}
    {other : Player}
    (here : (game.commitAction done player.id action amount).players[seat]? = some other) :
    (seat = game.currentPlayerIndex ∧ other = done.player) ∨
      (seat ≠ game.currentPlayerIndex ∧ game.players[seat]? = some other) := by
  rw [commitAction_players seated turn performed] at here
  exact getElem?_set_cases here

theorem commit_length (seated : Seated table game) (turn : game.Turn player)
    (performed : game.performAction player player.id action amount = some done) :
    (game.commitAction done player.id action amount).players.length = game.players.length := by
  rw [commitAction_players seated turn performed, List.length_set]

theorem afterAction_length (seated : Seated table game) (turn : game.Turn player)
    (performed : game.performAction player player.id action amount = some done) :
    (game.afterAction done player.id action amount).players.length = game.players.length := by
  obtain ⟨seat, complete, frame⟩ := game.afterAction_frame done player.id action amount
  rw [frame]
  exact commit_length seated turn performed

theorem afterAction_of_quiet (quiet : done.Quiet game player) (action : Action) (amount : Int) :
    (game.afterAction done player.id action amount).currentBet = game.currentBet ∧
      (game.afterAction done player.id action amount).lastRaiserIndex = game.lastRaiserIndex ∧
      (game.afterAction done player.id action amount).hasBetOrRaiseThisRound =
        game.hasBetOrRaiseThisRound := by
  obtain ⟨seat, complete, frame⟩ := game.afterAction_frame done player.id action amount
  rw [frame]
  exact ⟨quiet.bet, quiet.raiser, quiet.flag⟩

theorem afterAction_active (seated : Seated table game) (turn : game.Turn player)
    (inside : game.currentPlayerIndex < game.players.length)
    (performed : game.performAction player player.id action amount = some done) :
    (game.afterAction done player.id action amount).bettingRoundComplete = true ∨
      (game.afterAction done player.id action amount).isActive
        (game.afterAction done player.id action amount).currentPlayerIndex = true := by
  have size := commit_length seated turn performed
  rcases game.afterAction_cases done player.id action amount (size ▸ inside) with
    ⟨_, closed⟩ | ⟨next, found, moved⟩
  · exact Or.inl closed
  · rw [size] at found
    obtain ⟨_, acts, _⟩ := (Clockwise.search_eq_some_iff inside (Nat.le_refl _)).mp found
    rw [moved]
    unfold checkBettingRoundComplete
    split
    · exact Or.inl rfl
    · exact Or.inr acts

theorem advance_active (game : PokerGame)
    (inside : game.currentPlayerIndex < game.players.length) :
    game.advanceToNextPlayer.bettingRoundComplete = true ∨
      game.advanceToNextPlayer.isActive game.advanceToNextPlayer.currentPlayerIndex = true := by
  unfold advanceToNextPlayer
  dsimp only
  split
  · rename_i seat found
    exact Or.inr ((Clockwise.search_eq_some_iff inside (Nat.le_refl _)).mp found).2.1
  · exact Or.inl rfl

theorem commit_active (seated : Seated table game) (turn : game.Turn player)
    (performed : game.performAction player player.id action amount = some done) {seat : Nat}
    (active : (game.commitAction done player.id action amount).isActive seat = true) :
    game.isActive seat = true := by
  obtain ⟨other, here, status⟩ := isActive_iff.mp active
  rcases commit_seat seated turn performed here with ⟨rfl, _⟩ | ⟨_, there⟩
  · exact isActive_iff.mpr ⟨player, turn.here, turn.active⟩
  · exact isActive_iff.mpr ⟨other, there, status⟩

theorem commit_active_of_ne (seated : Seated table game) (turn : game.Turn player)
    (performed : game.performAction player player.id action amount = some done) {seat : Nat}
    (apart : seat ≠ game.currentPlayerIndex) (active : game.isActive seat = true) :
    (game.commitAction done player.id action amount).isActive seat = true := by
  obtain ⟨other, here, status⟩ := isActive_iff.mp active
  refine isActive_iff.mpr ⟨other, ?_, status⟩
  rw [commitAction_players seated turn performed, List.getElem?_set_ne (Ne.symm apart), here]

end AfterAction

end PokerGame

/-- The seat a lap of the table is counted from: any seat once there was a raise on the
street, the dealer before it, and the big blind before the flop. -/
def PokerGame.LapFrom (game : PokerGame) (base : Nat) : Prop :=
  (game.lastRaiserIndex.isSome = true ∧ game.hasBetOrRaiseThisRound = true) ∨
    (game.lastRaiserIndex = none ∧ game.currentPhase ≠ .preflop ∧ base = game.dealerButton) ∨
    game.lastRaiserIndex = some base

/-- A lap in progress: no `ACTIVE` bet is above the current one, and the `ACTIVE` players
already passed have matched it. -/
structure Lap (game : PokerGame) (base : Nat) : Prop where
  inside : base < game.players.length
  anchor : game.LapFrom base
  bounded : ∀ player ∈ game.players, player.status = .active →
    player.currentBet ≤ game.currentBet
  behind : ∀ (seat : Nat) (player : Player), game.players[seat]? = some player →
    player.status = .active →
    Clockwise.place game.players.length base seat <
      Clockwise.place game.players.length base game.currentPlayerIndex →
    player.currentBet = game.currentBet

/-- A turn that has come round to the first `ACTIVE` seat of a lap is at the finish, unless
that seat is the only one. -/
theorem PokerGame.LapFrom.atFinish {game : PokerGame} {base : Nat} (anchor : game.LapFrom base)
    (inside : base < game.players.length)
    (active : game.isActive game.currentPlayerIndex = true)
    (first : ∀ other, game.isActive other = true →
      Clockwise.place game.players.length base game.currentPlayerIndex ≤
        Clockwise.place game.players.length base other)
    (another : ∃ other, game.isActive other = true ∧ other ≠ game.currentPlayerIndex) :
    game.atFinish = true := by
  have turnIn := PokerGame.isActive_lt active
  unfold PokerGame.atFinish
  split
  · rfl
  · rename_i unraised
    rcases anchor with raised | ⟨none, later, rfl⟩ | raiser
    · exact absurd (by simp [raised]) unraised
    · have based : game.phaseBase = some game.dealerButton := by
        simp [PokerGame.phaseBase, later]
      obtain ⟨seat, chosen, acts, least⟩ :=
        PokerGame.getFirstActorForPhase_spec based inside ⟨_, active⟩
      rw [none]
      dsimp only
      have same : seat = game.currentPlayerIndex :=
        Clockwise.place_injective inside (PokerGame.isActive_lt acts) turnIn
          (Nat.le_antisymm (least _ active) (first _ acts))
      rw [chosen, same]
      simp
    · rw [raiser]
      dsimp only
      split
      · rfl
      · -- the turn is not on the base: another seat would come before it
        obtain ⟨other, acts, apart⟩ := another
        have otherIn := PokerGame.isActive_lt acts
        have early : Clockwise.place game.players.length base game.currentPlayerIndex <
            game.players.length - 1 := by
          have bound := Clockwise.place_lt inside other
          have order := first other acts
          have differ := Clockwise.place_ne inside otherIn turnIn apart
          omega
        have found : game.getNextActivePlayerFrom base = some game.currentPlayerIndex :=
          (Clockwise.search_eq_some_iff inside (Nat.sub_le _ 1)).mpr
            ⟨turnIn, active, early, fun other _ acts => first other acts⟩
        rw [found]
        simp

theorem PokerGame.another_active {game : PokerGame} (two : 2 ≤ game.activePlayers.length)
    (seat : Nat) : ∃ other, game.isActive other = true ∧ other ≠ seat := by
  have count : 2 ≤ (game.seatsWhere fun player => player.status == .active).length := by
    rw [PokerGame.length_seatsWhere]
    exact two
  have increasing := game.seatsWhere_increasing fun player => player.status == .active
  rcases listed : game.seatsWhere fun player => player.status == .active with
    _ | ⟨first, _ | ⟨second, rest⟩⟩
  · simp [listed] at count
  · simp [listed] at count
  · rw [listed, List.pairwise_cons] at increasing
    have before : first < second := increasing.1 second (by simp)
    have firstActs : game.isActive first = true := PokerGame.mem_activeSeats.mp (by simp [listed])
    have secondActs : game.isActive second = true :=
      PokerGame.mem_activeSeats.mp (by simp [listed])
    by_cases same : first = seat
    · exact ⟨second, secondActs, by omega⟩
    · exact ⟨first, firstActs, same⟩

namespace Lap

variable {table : Table} {game : PokerGame} {base : Nat} {player : Player} {action : Action}
  {amount : Int} {done : Performed}

/-- Who is `ACTIVE` after a quiet action and not ahead of the actor has matched the bet. -/
theorem matched_upto (lap : Lap game base) (seated : Seated table game) (inPlay : InPlay game)
    (turn : game.Turn player)
    (performed : game.performAction player player.id action amount = some done)
    (quiet : done.Quiet game player) {seat : Nat} {other : Player}
    (here : (game.commitAction done player.id action amount).players[seat]? = some other)
    (active : other.status = .active)
    (upto : Clockwise.place game.players.length base seat ≤
      Clockwise.place game.players.length base game.currentPlayerIndex) :
    other.currentBet = game.currentBet := by
  rcases PokerGame.commit_seat seated turn performed here with ⟨_, rfl⟩ | ⟨apart, there⟩
  · have own := lap.bounded player (List.mem_of_getElem? turn.here) turn.active
    have low := quiet.low
    have settled := quiet.settled active
    omega
  · have seatIn := (List.getElem?_eq_some_iff.mp there).1
    have differ := Clockwise.place_ne lap.inside seatIn inPlay.turn apart
    exact lap.behind seat other there active (by omega)

/-- A quiet action closes the round or takes the turn further along the lap. -/
theorem quiet (lap : Lap game base) (seated : Seated table game) (inPlay : InPlay game)
    (turn : game.Turn player)
    (performed : game.performAction player player.id action amount = some done)
    (quiet : done.Quiet game player) :
    (game.afterAction done player.id action amount).bettingRoundComplete = true ∨
      (Lap (game.afterAction done player.id action amount) base ∧
        Clockwise.place game.players.length base game.currentPlayerIndex <
          Clockwise.place game.players.length base
            (game.afterAction done player.id action amount).currentPlayerIndex ∧
        ∀ seat, (game.afterAction done player.id action amount).isActive seat = true →
          Clockwise.place game.players.length base game.currentPlayerIndex <
            Clockwise.place game.players.length base seat →
          Clockwise.place game.players.length base
              (game.afterAction done player.id action amount).currentPlayerIndex ≤
            Clockwise.place game.players.length base seat) := by
  have size := PokerGame.commit_length seated turn performed
  rcases game.afterAction_cases done player.id action amount (size ▸ inPlay.turn) with
    ⟨_, closed⟩ | ⟨next, found, moved⟩
  · exact Or.inl closed
  rw [moved]
  by_cases closed : (game.turnedTo done player.id action amount next).checkBettingRoundComplete
      |>.bettingRoundComplete
  · exact Or.inl closed
  have running := Bool.eq_false_iff.mpr closed
  rw [PokerGame.checked_eq running]
  rw [size] at found
  obtain ⟨nextIn, nextActs, _, _⟩ :=
    (Clockwise.search_eq_some_iff inPlay.turn (Nat.le_refl _)).mp found
  have anchor : (game.turnedTo done player.id action amount next).LapFrom base := by
    simp only [PokerGame.LapFrom, PokerGame.turnedTo, PokerGame.commitAction, quiet.raiser,
      quiet.flag]
    exact lap.anchor
  rcases Clockwise.search_forward_or_wraps lap.inside inPlay.turn found with
    ⟨ahead, nearest⟩ | ⟨_, everyone⟩
  · refine Or.inr ⟨⟨size ▸ lap.inside, anchor, ?_, ?_⟩, ahead,
      fun seat acts => nearest seat (size ▸ PokerGame.isActive_lt acts) acts⟩
    · intro other member active
      change other.currentBet ≤ done.currentBet
      rw [quiet.bet]
      obtain ⟨seat, here⟩ := List.mem_iff_getElem?.mp member
      rcases PokerGame.commit_seat seated turn performed here with ⟨_, rfl⟩ | ⟨_, there⟩
      · have own := lap.bounded player (List.mem_of_getElem? turn.here) turn.active
        have low := quiet.low
        omega
      · exact lap.bounded other (List.mem_of_getElem? there) active
    · intro seat other here active before
      change other.currentBet = done.currentBet
      change Clockwise.place (game.commitAction done player.id action amount).players.length base
        seat < Clockwise.place (game.commitAction done player.id action amount).players.length base
          next at before
      rw [size] at before
      rw [quiet.bet]
      have acts : (game.commitAction done player.id action amount).isActive seat = true :=
        PokerGame.isActive_iff.mpr ⟨other, here, active⟩
      apply lap.matched_upto seated inPlay turn performed quiet here active
      by_contra beyond
      have := nearest seat (size ▸ PokerGame.isActive_lt acts) acts (by omega)
      omega
  · -- the turn has come round, so the round is over after all
    exfalso
    have matched : (game.turnedTo done player.id action amount next).AllMatched := by
      intro seat other here active
      change other.currentBet = done.currentBet
      rw [quiet.bet]
      have acts : (game.commitAction done player.id action amount).isActive seat = true :=
        PokerGame.isActive_iff.mpr ⟨other, here, active⟩
      exact lap.matched_upto seated inPlay turn performed quiet here active
        (everyone seat (size ▸ PokerGame.isActive_lt acts) acts).2
    have ended : (game.turnedTo done player.id action amount next).roundIsOver = true := by
      apply PokerGame.roundIsOver_of_matched matched
      intro two
      refine anchor.atFinish (size ▸ lap.inside) nextActs ?_ (PokerGame.another_active two next)
      intro other acts
      change Clockwise.place (game.commitAction done player.id action amount).players.length base
        next ≤ Clockwise.place (game.commitAction done player.id action amount).players.length base
          other
      rw [size]
      exact (everyone other (size ▸ PokerGame.isActive_lt acts) acts).1
    rw [PokerGame.checked_complete, ended, Bool.or_true] at running
    cases running

end Lap

end Holdem
