import Holdem.HandStart

set_option autoImplicit false

namespace Holdem

namespace PokerGame

/-! ### Where the button goes -/

section Button

variable {game : PokerGame}

/-- How many players come into the hand with chips. -/
def solventCount (game : PokerGame) : Nat :=
  (game.players.filter fun player => decide (0 < player.chips)).length

theorem length_reset_survivors (game : PokerGame) (shuffle : Shuffle) :
    (game.resetForHand shuffle).survivorSeats.length = game.solventCount := by
  unfold survivorSeats solventCount
  rw [length_seatsWhere]
  simp only [resetForHand, List.filter_map, List.length_map]
  congr 1
  apply List.filter_congr
  intro player _
  have alive := reset_status player
  by_cases solvent : 0 < player.chips
  · simpa [solvent] using alive.mpr solvent
  · simpa [solvent] using mt alive.mp solvent

/-- A seat is where the button belongs: the first survivor clockwise after the old button. -/
def NextButton (game : PokerGame) (button : Nat) : Prop :=
  Clockwise.IsFirst game.players.length game.dealerButton game.HasChips button

/-- The old button still has chips, or the survivors all sit on one side of it. -/
def ButtonTracked (game : PokerGame) : Prop :=
  game.HasChips game.dealerButton ∨ (∀ seat, game.HasChips seat → seat < game.dealerButton) ∨
    ∀ seat, game.HasChips seat → game.dealerButton < seat

theorem nextButton_iff (shuffle : Shuffle) {button : Nat} :
    Clockwise.IsFirst game.players.length game.dealerButton
        (· ∈ (game.resetForHand shuffle).survivorSeats) button ↔ game.NextButton button := by
  constructor
  · exact fun first => first.congr fun _ => mem_reset_survivors
  · exact fun first => first.congr fun _ => mem_reset_survivors.symm

theorem readyForBlinds_button {shuffle : Shuffle} (two : 2 ≤ game.solventCount)
    (seated : game.dealerButton < game.players.length) :
    game.NextButton (game.readyForBlinds shuffle).dealerButton ↔ game.ButtonTracked := by
  have size := game.length_reset_survivors shuffle
  have increasing : (game.resetForHand shuffle).survivorSeats.Pairwise (· < ·) :=
    seatsWhere_increasing _ _
  have inside : ∀ seat ∈ (game.resetForHand shuffle).survivorSeats,
      seat < game.players.length := by
    intro seat member
    have bound := seatsWhere_lt member
    rwa [resetForHand, List.length_map] at bound
  have some : (game.resetForHand shuffle).survivorSeats ≠ [] :=
    List.ne_nil_of_length_pos (by omega)
  have moved : (game.readyForBlinds shuffle).dealerButton =
      if game.dealerButton ∉ (game.resetForHand shuffle).survivorSeats then
        (game.resetForHand shuffle).survivorSeats.headD 0
      else (game.resetForHand shuffle).survivorSeats.getD
        (((game.resetForHand shuffle).survivorSeats.idxOf game.dealerButton + 1) %
          (game.resetForHand shuffle).survivorSeats.length) 0 := by
    unfold readyForBlinds moveDealerButton
    dsimp only
    rw [if_neg (by simpa using some)]
    rfl
  rw [← nextButton_iff shuffle, moved]
  by_cases listed : game.dealerButton ∈ (game.resetForHand shuffle).survivorSeats
  · have valid := List.idxOf_lt_length_iff.mpr listed
    have next := Clockwise.isFirst_next_entry increasing inside valid
    rw [List.getD_eq_getElem _ _ valid, List.getElem_idxOf valid] at next
    rw [if_neg (not_not.mpr listed)]
    exact ⟨fun _ => Or.inl (mem_reset_survivors.mp listed), fun _ => next⟩
  · have broke : ¬ game.HasChips game.dealerButton := mt mem_reset_survivors.mpr listed
    rw [if_pos listed, Clockwise.isFirst_head_iff increasing inside some seated listed]
    unfold ButtonTracked
    simp only [broke, false_or, mem_reset_survivors]

end Button

/-- The tables before and after the button moves, hand after hand. Between two hands the
players may have won or lost anything. -/
def handStarts (game : PokerGame) : List (List Player × Shuffle) → List (PokerGame × PokerGame)
  | [] => []
  | (players, shuffle) :: rest =>
      let before := { game with players := players }
      let after := before.readyForBlinds shuffle
      (before, after) :: after.handStarts rest

theorem handStarts_spec {game : PokerGame} {hands : List (List Player × Shuffle)}
    (seated : game.dealerButton < game.players.length)
    (table : ∀ hand ∈ hands, hand.1.length = game.players.length ∧
      2 ≤ (hand.1.filter fun player => decide (0 < player.chips)).length) :
    ∀ start ∈ game.handStarts hands, 2 ≤ start.1.solventCount ∧
      start.1.dealerButton < start.1.players.length ∧
      ∃ shuffle, start.2 = start.1.readyForBlinds shuffle := by
  induction hands generalizing game with
  | nil => simp [handStarts]
  | cons hand rest ih =>
      obtain ⟨players, shuffle⟩ := hand
      obtain ⟨length, two⟩ := table (players, shuffle) (by simp)
      dsimp only at length two
      let before : PokerGame := { game with players := players }
      have solvent : 2 ≤ before.solventCount := two
      have alive : (before.resetForHand shuffle).survivorSeats ≠ [] := by
        apply List.ne_nil_of_length_pos
        rw [length_reset_survivors]
        omega
      obtain ⟨survivors, buttonIn, kept⟩ := readyForBlinds_seats alive
      have size : (before.readyForBlinds shuffle).players.length = game.players.length :=
        kept.trans length
      have still : (before.readyForBlinds shuffle).dealerButton <
          (before.readyForBlinds shuffle).players.length :=
        seatsWhere_lt (survivors ▸ buttonIn)
      have later := ih still fun other member => by
        rw [size]
        exact table other (List.mem_cons_of_mem _ member)
      intro start member
      rcases List.mem_cons.mp member with rfl | next
      · exact ⟨solvent, length ▸ seated, shuffle, rfl⟩
      · exact later start next

/-- The button moves to the first survivor clockwise exactly when the old button still has
chips or no two survivors have it between them; so in a match where that holds at every
hand no survivor is ever passed over. -/
theorem button_reaches_next_survivor_iff (game : PokerGame) (shuffle : Shuffle)
    (hands : List (List Player × Shuffle)) (seated : game.dealerButton < game.players.length) :
    (2 ≤ game.solventCount →
      (game.NextButton (game.readyForBlinds shuffle).dealerButton ↔ game.ButtonTracked)) ∧
    ((∀ hand ∈ hands, hand.1.length = game.players.length ∧
        2 ≤ (hand.1.filter fun player => decide (0 < player.chips)).length) →
      (∀ start ∈ game.handStarts hands, start.1.ButtonTracked) →
      ∀ start ∈ game.handStarts hands, start.1.NextButton start.2.dealerButton) := by
  constructor
  · intro two
    exact readyForBlinds_button two seated
  · intro table tracked start member
    obtain ⟨two, inside, shuffle, moved⟩ := handStarts_spec seated table start member
    rw [moved]
    exact (readyForBlinds_button two inside).mpr (tracked start member)

def brokeDealer : PokerGame :=
  { smallBlind := 10
    bigBlind := 20
    players := [{ id := 0, chips := 100 }, { id := 1, chips := 0 }, { id := 2, chips := 100 }]
    dealerButton := 1 }

theorem button_passes_over_survivor :
    2 ≤ brokeDealer.solventCount ∧ brokeDealer.HasChips 2 ∧
      (brokeDealer.readyForBlinds .unshuffled).dealerButton = 0 ∧
      ¬ brokeDealer.NextButton (brokeDealer.readyForBlinds .unshuffled).dealerButton := by
  have moved : (brokeDealer.readyForBlinds .unshuffled).dealerButton = 0 := by decide
  have third : brokeDealer.HasChips 2 := ⟨{ id := 2, chips := 100 }, rfl, by decide⟩
  refine ⟨by decide, third, moved, ?_⟩
  rw [moved]
  intro first
  exact absurd (first.least 2 (by decide) third) (by decide)

theorem button_reaches_next_survivor_three :
    { brokeDealer with dealerButton := 2 }.NextButton 0 := by
  have tracked : ({ brokeDealer with dealerButton := 2 } : PokerGame).ButtonTracked :=
    Or.inl ⟨{ id := 2, chips := 100 }, rfl, by decide⟩
  have moved : (({ brokeDealer with dealerButton := 2 } : PokerGame).readyForBlinds
      .unshuffled).dealerButton = 0 := by decide
  rw [← moved]
  exact ((button_reaches_next_survivor_iff _ .unshuffled [] (by decide)).1 (by decide)).mpr tracked

/-! ### Where the blinds go -/

/-- The small blind is the button of two survivors and else the next survivor after it; the
big blind is the next survivor after the small blind. -/
theorem blindSeats_clockwise {game : PokerGame} (two : 2 ≤ game.survivorSeats.length)
    (button : game.dealerButton ∈ game.survivorSeats) :
    (if game.survivorSeats.length = 2 then game.blindSeats.1 = game.dealerButton
      else Clockwise.IsFirst game.players.length game.dealerButton (· ∈ game.survivorSeats)
        game.blindSeats.1) ∧
      Clockwise.IsFirst game.players.length game.blindSeats.1 (· ∈ game.survivorSeats)
        game.blindSeats.2 := by
  have increasing : game.survivorSeats.Pairwise (· < ·) := seatsWhere_increasing game _
  have inside : ∀ seat ∈ game.survivorSeats, seat < game.players.length :=
    fun seat => seatsWhere_lt
  have dealerIn := List.idxOf_lt_length_iff.mpr button
  have dealerAt : game.survivorSeats.getD (game.survivorSeats.idxOf game.dealerButton) 0 =
      game.dealerButton := by
    rw [List.getD_eq_getElem _ _ dealerIn]
    exact List.getElem_idxOf dealerIn
  have afterDealer := Clockwise.isFirst_next_entry increasing inside dealerIn
  rw [dealerAt] at afterDealer
  unfold blindSeats
  dsimp only
  by_cases headsUp : game.survivorSeats.length = 2
  · have other : (game.survivorSeats.idxOf game.dealerButton + 1) % game.survivorSeats.length =
        1 - game.survivorSeats.idxOf game.dealerButton := by
      rw [headsUp] at dealerIn ⊢
      omega
    rw [other] at afterDealer
    rw [if_pos headsUp, if_pos headsUp]
    exact ⟨rfl, afterDealer⟩
  · have smallIn : (game.survivorSeats.idxOf game.dealerButton + 1) %
        game.survivorSeats.length < game.survivorSeats.length := Nat.mod_lt _ (by omega)
    have afterSmall := Clockwise.isFirst_next_entry increasing inside smallIn
    rw [Nat.mod_add_mod] at afterSmall
    rw [if_neg headsUp, if_neg headsUp]
    exact ⟨afterDealer, afterSmall⟩

/-- The dealer and the blinds of a hand: one seat each, none of them out, in clockwise order
with the first actor behind them, and their bets alone in the pot. -/
structure BlindsPosted (game : PokerGame) (button small big : Nat) (next : PokerGame) : Prop where
  dealer : ∀ (seat : Nat) player, next.players[seat]? = some player →
    (player.isDealer = true ↔ seat = button)
  smallBlind : ∀ (seat : Nat) player, next.players[seat]? = some player →
    (player.isSmallBlind = true ↔ seat = small)
  bigBlind : ∀ (seat : Nat) player, next.players[seat]? = some player →
    (player.isBigBlind = true ↔ seat = big)
  alive : ∀ seat ∈ [button, small, big], ∃ player, next.players[seat]? = some player ∧
    player.status ≠ .busted
  headsUp : game.solventCount = 2 → small = button
  around : 3 ≤ game.solventCount →
    Clockwise.IsFirst game.players.length button game.HasChips small
  facing : Clockwise.IsFirst game.players.length small game.HasChips big
  turn : Clockwise.IsFirst game.players.length big game.HasChips next.currentPlayerIndex
  pot : ∀ smallPlayer bigPlayer, game.players[small]? = some smallPlayer →
    game.players[big]? = some bigPlayer →
    next.pot = min game.smallBlind smallPlayer.chips + min game.bigBlind bigPlayer.chips

theorem openSeat_alive (game : PokerGame) (button small big seat : Nat) {player : Player}
    (solvent : 0 < player.chips) :
    (game.openSeat button small big seat player).status ≠ .busted := by
  have inPlay := openSeat_inPlay game button small big seat player (Or.inl solvent)
  have alive : (player.resetForNewHand.status != .busted) = true := by
    simpa using (reset_status player).mpr solvent
  rw [alive, Bool.and_eq_true] at inPlay
  simpa using inPlay.1

section Dealt

variable {game : PokerGame} {button small big : Nat} {players dealt : List Player}

theorem seat_after_deal
    (opened : ∀ seat, players[seat]? =
      (game.players[seat]?).map (game.openSeat button small big seat))
    (matched : List.Forall₂ SameButCards players dealt) (seat : Nat) :
    ∃ cards, dealt[seat]? = (game.players[seat]?).map fun before =>
      { game.openSeat button small big seat before with holeCards := cards } := by
  obtain ⟨cards, same⟩ := getElem?_of_forall₂ matched (fun _ _ related => related) seat
  refine ⟨cards, ?_⟩
  rw [same, opened, Option.map_map]
  rfl

theorem marks_after_deal
    (opened : ∀ seat, players[seat]? =
      (game.players[seat]?).map (game.openSeat button small big seat))
    (matched : List.Forall₂ SameButCards players dealt) (apart : small ≠ big) {seat : Nat}
    {player : Player} (here : dealt[seat]? = some player) :
    (player.isDealer = true ↔ seat = button) ∧ (player.isSmallBlind = true ↔ seat = small) ∧
      (player.isBigBlind = true ↔ seat = big) := by
  obtain ⟨cards, same⟩ := seat_after_deal opened matched seat
  rw [here] at same
  obtain ⟨before, _, rfl⟩ := Option.map_eq_some_iff.mp same.symm
  obtain ⟨_, dealer, smallBlind, bigBlind⟩ :=
    @openSeat_marks game button small big seat before apart
  rw [dealer, smallBlind, bigBlind, beq_iff_eq, beq_iff_eq, beq_iff_eq]
  exact ⟨Iff.rfl, Iff.rfl, Iff.rfl⟩

theorem alive_after_deal
    (opened : ∀ seat, players[seat]? =
      (game.players[seat]?).map (game.openSeat button small big seat))
    (matched : List.Forall₂ SameButCards players dealt) {seat : Nat}
    (solvent : game.HasChips seat) :
    ∃ player, dealt[seat]? = some player ∧ player.status ≠ .busted := by
  obtain ⟨before, there, chips⟩ := solvent
  obtain ⟨cards, same⟩ := seat_after_deal opened matched seat
  rw [there, Option.map_some] at same
  exact ⟨_, same, openSeat_alive game button small big seat chips⟩

end Dealt

theorem blindsPosted_of_deal (game : PokerGame) (shuffle : Shuffle) (two : 2 ≤ game.solventCount)
    (positive : 0 < game.smallBlind ∧ 0 < game.bigBlind) :
    ∃ button, ∀ dealt : PokerGame,
      dealt.dealerButton = (game.readyForBlinds shuffle).postBlinds.dealerButton →
      dealt.pot = (game.readyForBlinds shuffle).postBlinds.pot →
      List.Forall₂ SameButCards (game.readyForBlinds shuffle).postBlinds.players dealt.players →
      BlindsPosted game button (game.readyForBlinds shuffle).blindSeats.1
        (game.readyForBlinds shuffle).blindSeats.2 dealt.setFirstActorPreflop := by
  have size := game.length_reset_survivors shuffle
  have enough : 2 ≤ (game.resetForHand shuffle).survivorSeats.length := by omega
  have alive : (game.resetForHand shuffle).survivorSeats ≠ [] :=
    List.ne_nil_of_length_pos (by omega)
  obtain ⟨button, players, history, db, paid, posted, apart, smallIn, bigIn, buttonIn, opened,
    _, pot, firstIn, firstOrder⟩ := postBlinds_opens game shuffle enough
  obtain ⟨survivors, _, length⟩ := readyForBlinds_seats alive
  have dealer : (game.readyForBlinds shuffle).dealerButton = button := by
    rw [← postBlinds_dealer, posted]
  have clockwise := blindSeats_clockwise (survivors ▸ enough)
    (dealer.symm ▸ survivors.symm ▸ buttonIn)
  rw [survivors, dealer, length, size] at clockwise
  obtain ⟨smallAt, bigNext⟩ := clockwise
  have solvent : ∀ seat, seat ∈ (game.resetForHand shuffle).survivorSeats ↔ game.HasChips seat :=
    fun seat => mem_reset_survivors
  have inside : ∀ seat ∈ (game.resetForHand shuffle).survivorSeats,
      seat < game.players.length := by
    intro seat member
    rw [← length]
    exact seatsWhere_lt (survivors ▸ member)
  generalize (game.readyForBlinds shuffle).blindSeats = seats at *
  obtain ⟨small, big⟩ := seats
  dsimp only at *
  refine ⟨button, ?_⟩
  intro dealt sameButton samePot matched
  rw [posted] at sameButton samePot matched
  dsimp only at sameButton samePot matched
  have seated : (dealt.seatsWhere fun player =>
      player.status != .busted && player.status != .folded) =
        (game.resetForHand shuffle).survivorSeats :=
    seats_after_deal ((solvent small).mp smallIn) ((solvent big).mp bigIn) opened matched
  have turn := setFirstActorPreflop_spec seated enough (sameButton ▸ buttonIn)
  rw [sameButton] at turn
  have marks := fun (seat : Nat) player (here : dealt.players[seat]? = some player) =>
    marks_after_deal opened matched apart here
  rw [turn]
  refine ⟨fun seat player here => (marks seat player here).1,
    fun seat player here => (marks seat player here).2.1,
    fun seat player here => (marks seat player here).2.2, ?_, ?_, ?_, bigNext.congr solvent, ?_, ?_⟩
  · intro seat member
    apply alive_after_deal opened matched
    simp only [List.mem_cons, List.not_mem_nil, or_false] at member
    rcases member with rfl | rfl | rfl
    · exact (solvent _).mp buttonIn
    · exact (solvent _).mp smallIn
    · exact (solvent _).mp bigIn
  · intro lone
    rwa [if_pos lone] at smallAt
  · intro several
    rw [if_neg (by omega)] at smallAt
    exact smallAt.congr solvent
  · have order : Clockwise.IsFirst game.players.length big
        (· ∈ (game.resetForHand shuffle).survivorSeats) _ :=
      ⟨inside _ firstIn, firstIn, fun other _ listed => firstOrder other listed⟩
    exact order.congr solvent
  · intro smallPlayer bigPlayer smallHere bigHere
    have alive : ∀ {seat : Nat} {player}, game.players[seat]? = some player →
        game.HasChips seat → 0 < player.chips := by
      rintro seat player here ⟨other, there, chips⟩
      rw [here] at there
      cases there
      exact chips
    have smallChips := alive smallHere ((solvent small).mp smallIn)
    have bigChips := alive bigHere ((solvent big).mp bigIn)
    have total := pot smallPlayer bigPlayer smallHere bigHere
    show dealt.pot = _
    omega

/-- After the blinds are posted, and in every hand `start_new_hand` opens, one seat each is
marked as dealer, small blind and big blind, and they and the first actor stand in clockwise
order. -/
theorem blinds_follow_the_button (game : PokerGame) (shuffle : Shuffle)
    (two : 2 ≤ game.solventCount) (positive : 0 < game.smallBlind ∧ 0 < game.bigBlind) :
    ∃ button small big,
      BlindsPosted game button small big
        (game.readyForBlinds shuffle).postBlinds.setFirstActorPreflop ∧
      ∀ next, game.startNewHand shuffle = .ok next → BlindsPosted game button small big next := by
  obtain ⟨button, posted⟩ := blindsPosted_of_deal game shuffle two positive
  refine ⟨button, _, _, posted _ rfl rfl ?_, ?_⟩
  · exact List.forall₂_same.mpr fun player _ => ⟨player.holeCards, rfl⟩
  · intro next started
    have several : ¬ (game.resetForHand shuffle).survivorSeats.length < 2 := by
      rw [length_reset_survivors]
      omega
    unfold startNewHand at started
    dsimp only at started
    rw [if_neg several] at started
    split at started
    · cases started
    · rename_i dealt served
      cases started
      have matched := dealHoleCards_matched served
      obtain ⟨_, _, players, deck, _, _, rfl⟩ := dealHoleCards_rounds served
      have set := posted { (game.readyForBlinds shuffle).postBlinds with
        players := players, deck := deck } rfl rfl matched
      exact ⟨set.dealer, set.smallBlind, set.bigBlind, set.alive, set.headsUp, set.around,
        set.facing, set.turn, set.pot⟩

theorem blinds_follow_the_button_broke :
    ∃ button small big, BlindsPosted brokeDealer button small big
      (brokeDealer.readyForBlinds .unshuffled).postBlinds.setFirstActorPreflop := by
  obtain ⟨button, small, big, posted, _⟩ :=
    blinds_follow_the_button brokeDealer .unshuffled (by decide) (by decide)
  exact ⟨button, small, big, posted⟩

end PokerGame

end Holdem
