import Holdem.PhaseFacts
import Mathlib.Data.List.Induction

set_option autoImplicit false

namespace Holdem

/-- Two players who differ at most in their hole cards. -/
def SameButCards (before after : Player) : Prop :=
  ∃ cards, after = { before with holeCards := cards }

namespace PokerGame

theorem seatsWhere_increasing (game : PokerGame) (test : Player → Bool) :
    (game.seatsWhere test).Pairwise (· < ·) :=
  List.Pairwise.filter _ List.pairwise_lt_range

theorem seatsWhere_lt {game : PokerGame} {test : Player → Bool} {seat : Nat}
    (member : seat ∈ game.seatsWhere test) : seat < game.players.length :=
  List.mem_range.mp (List.mem_filter.mp member).1

theorem length_seatsWhere (game : PokerGame) (test : Player → Bool) :
    (game.seatsWhere test).length = (game.players.filter test).length := by
  unfold seatsWhere
  generalize game.players = players
  induction players using List.reverseRecOn with
  | nil => rfl
  | append_singleton rest player ih =>
      have earlier : (List.range rest.length).filter
          (fun seat => ((rest ++ [player])[seat]?).any test) =
          (List.range rest.length).filter fun seat => (rest[seat]?).any test := by
        apply List.filter_congr
        intro seat member
        rw [List.getElem?_append_left (List.mem_range.mp member)]
      rw [List.length_append, List.length_singleton, List.range_succ, List.filter_append, earlier,
        List.length_append, ih, List.filter_append, List.length_append]
      congr 1
      simp only [List.filter_cons, List.filter_nil, List.getElem?_concat_length, Option.any_some]
      split <;> rfl

theorem seatsWhere_congr {first second : PokerGame} {left right : Player → Bool}
    (same : second.players.map right = first.players.map left) :
    second.seatsWhere right = first.seatsWhere left := by
  have size : second.players.length = first.players.length := by
    simpa using congrArg List.length same
  unfold seatsWhere
  rw [size]
  apply List.filter_congr
  intro seat _
  have here := congrArg (fun images => images[seat]?) same
  simp only [List.getElem?_map] at here
  cases one : second.players[seat]? <;> cases two : first.players[seat]? <;>
    simp_all

/-- A round of dealing with enough cards gives one card to every player still in. -/
theorem dealRound_of_enough {players : List Player} {deck : List Card}
    (enough : (players.filter fun player => player.status != .busted).length ≤ deck.length)
    (room : ∀ player ∈ players, player.holeCards.length < 2) :
    ∃ dealt, dealRound players deck =
        .ok (dealt, deck.drop (players.filter fun player => player.status != .busted).length) ∧
      List.Forall₂ (fun before after => SameButCards before after ∧
        after.holeCards.length =
          before.holeCards.length + if before.status = .busted then 0 else 1) players dealt := by
  induction players generalizing deck with
  | nil => exact ⟨[], rfl, .nil⟩
  | cons player rest ih =>
      have roomRest : ∀ other ∈ rest, other.holeCards.length < 2 := fun other member =>
        room other (List.mem_cons_of_mem _ member)
      by_cases busted : player.status = .busted
      · have sameCount : ((player :: rest).filter fun player => player.status != .busted) =
            rest.filter fun player => player.status != .busted := by
          simp [busted]
        rw [sameCount] at enough ⊢
        obtain ⟨dealt, done, matched⟩ := ih enough roomRest
        refine ⟨player :: dealt, by simp [dealRound, busted, done], .cons ?_ matched⟩
        exact ⟨⟨player.holeCards, rfl⟩, by simp [busted]⟩
      · have oneMore : ((player :: rest).filter fun player => player.status != .busted) =
            player :: rest.filter fun player => player.status != .busted := by
          simp [busted]
        rw [oneMore, List.length_cons] at enough ⊢
        cases deck with
        | nil => simp at enough
        | cons card deck =>
            obtain ⟨dealt, done, matched⟩ := ih (by simpa using enough) roomRest
            have space : ¬ 2 ≤ player.holeCards.length := by
              have := room player (by simp)
              omega
            refine ⟨{ player with holeCards := player.holeCards ++ [card] } :: dealt,
              by simp [dealRound, busted, Deck.dealCard, Player.addHoleCard, space, done],
              .cons ?_ matched⟩
            exact ⟨⟨_, rfl⟩, by simp [busted]⟩

theorem dealRound_cons {player : Player} {others dealt : List Player} {deck rest : List Card}
    (returned : dealRound (player :: others) deck = .ok (dealt, rest)) :
    (player.status = .busted ∧ ∃ served, dealRound others deck = .ok (served, rest) ∧
        dealt = player :: served) ∨
      (player.status ≠ .busted ∧ ∃ card below served, deck = card :: below ∧
        dealRound others below = .ok (served, rest) ∧
        dealt = { player with holeCards := player.holeCards ++ [card] } :: served) := by
  unfold dealRound at returned
  by_cases busted : player.status = .busted
  · rw [if_pos busted] at returned
    cases round : dealRound others deck with
    | error raised =>
        rw [round] at returned
        cases returned
    | ok pair =>
        rw [round] at returned
        cases returned
        exact Or.inl ⟨busted, pair.1, rfl, rfl⟩
  · rw [if_neg busted] at returned
    cases deck with
    | nil => cases returned
    | cons card below =>
        simp only [Deck.dealCard, Player.addHoleCard] at returned
        split at returned
        · cases returned
        · rename_i taken held
          split at held
          · cases held
          · cases held
            cases round : dealRound others below with
            | error raised =>
                rw [round] at returned
                cases returned
            | ok pair =>
                rw [round] at returned
                cases returned
                exact Or.inr ⟨busted, card, below, pair.1, rfl, round, rfl⟩

/-- A deal that returns is two rounds that return. -/
theorem dealHoleCards_rounds {game dealt : PokerGame} (returned : game.dealHoleCards = .ok dealt) :
    ∃ once between players deck, dealRound game.players game.deck = .ok (once, between) ∧
      dealRound once between = .ok (players, deck) ∧
      dealt = { game with players := players, deck := deck } := by
  unfold dealHoleCards at returned
  cases first : dealRound game.players game.deck with
  | error raised =>
      rw [first] at returned
      cases returned
  | ok once =>
      simp only [first] at returned
      cases second : dealRound once.1 once.2 with
      | error raised =>
          rw [second] at returned
          cases returned
      | ok twice =>
          rw [second] at returned
          cases returned
          exact ⟨once.1, once.2, twice.1, twice.2, rfl, second, rfl⟩

theorem dealRound_matched {players dealt : List Player} {deck rest : List Card}
    (returned : dealRound players deck = .ok (dealt, rest)) :
    List.Forall₂ SameButCards players dealt := by
  induction players generalizing dealt deck with
  | nil =>
      cases returned
      exact List.Forall₂.nil
  | cons player others ih =>
      rcases dealRound_cons returned with ⟨_, served, later, rfl⟩ |
        ⟨_, card, below, served, _, later, rfl⟩
      · exact List.Forall₂.cons ⟨player.holeCards, rfl⟩ (ih later)
      · exact List.Forall₂.cons ⟨player.holeCards ++ [card], rfl⟩ (ih later)

theorem dealHoleCards_matched {game dealt : PokerGame} (returned : game.dealHoleCards = .ok dealt) :
    List.Forall₂ SameButCards game.players dealt.players := by
  obtain ⟨once, between, players, deck, first, second, rfl⟩ := dealHoleCards_rounds returned
  obtain ⟨firstLength, firstSame⟩ := List.forall₂_iff_get.mp (dealRound_matched first)
  obtain ⟨secondLength, secondSame⟩ := List.forall₂_iff_get.mp (dealRound_matched second)
  refine List.forall₂_iff_get.mpr ⟨firstLength.trans secondLength, ?_⟩
  intro index beforeIn afterIn
  obtain ⟨_, middle⟩ := firstSame index beforeIn (firstLength ▸ beforeIn)
  obtain ⟨cards, final⟩ := secondSame index (firstLength ▸ beforeIn) afterIn
  exact ⟨cards, by rw [final, middle]⟩

theorem map_of_forall₂ {β : Type} {f : Player → β} {players dealt : List Player}
    {related : Player → Player → Prop} (matched : List.Forall₂ related players dealt)
    (same : ∀ before after, related before after → f after = f before) :
    dealt.map f = players.map f := by
  induction matched with
  | nil => rfl
  | cons head _ ih => rw [List.map_cons, List.map_cons, same _ _ head, ih]

theorem getElem?_of_forall₂ {players dealt : List Player}
    {related : Player → Player → Prop} (matched : List.Forall₂ related players dealt)
    (cards : ∀ before after, related before after → SameButCards before after) (seat : Nat) :
    ∃ held, dealt[seat]? =
      (players[seat]?).map fun player => { player with holeCards := held } := by
  induction matched generalizing seat with
  | nil => exact ⟨[], rfl⟩
  | cons head _ ih =>
      cases seat with
      | zero =>
          obtain ⟨held, same⟩ := cards _ _ head
          exact ⟨held, by simp [same]⟩
      | succ seat => simpa using ih seat

def readyForBlinds (game : PokerGame) (shuffle : Shuffle) : PokerGame :=
  (game.resetForHand shuffle).moveDealerButton

/-- What `start_new_hand` makes of the player at a seat, hole cards apart. -/
def openSeat (game : PokerGame) (button small big seat : Nat) (player : Player) : Player :=
  let fresh : Player := { player.resetForNewHand with isDealer := seat == button }
  if seat = big then (Player.bet { fresh with isBigBlind := true } game.bigBlind).2
  else if seat = small then (Player.bet { fresh with isSmallBlind := true } game.smallBlind).2
  else fresh

theorem resetForHand_getElem? (game : PokerGame) (shuffle : Shuffle) (seat : Nat) :
    (game.resetForHand shuffle).players[seat]? =
      (game.players[seat]?).map Player.resetForNewHand := by
  simp [resetForHand]

theorem mem_survivorSeats {game : PokerGame} {seat : Nat} :
    seat ∈ game.survivorSeats ↔
      ∃ player, game.players[seat]? = some player ∧ player.status ≠ .busted := by
  unfold survivorSeats
  rw [mem_seatsWhere]
  simp

theorem reset_status (player : Player) :
    player.resetForNewHand.status ≠ .busted ↔ 0 < player.chips := by
  unfold Player.resetForNewHand
  dsimp only
  split <;> simp_all

def HasChips (game : PokerGame) (seat : Nat) : Prop :=
  ∃ player, game.players[seat]? = some player ∧ 0 < player.chips

/-- After the reset, a seat survives exactly when its player has chips. -/
theorem mem_reset_survivors {game : PokerGame} {shuffle : Shuffle} {seat : Nat} :
    seat ∈ (game.resetForHand shuffle).survivorSeats ↔ game.HasChips seat := by
  rw [mem_survivorSeats]
  constructor
  · rintro ⟨player, here, alive⟩
    rw [resetForHand_getElem?, Option.map_eq_some_iff] at here
    obtain ⟨before, there, rfl⟩ := here
    exact ⟨before, there, (reset_status before).mp alive⟩
  · rintro ⟨before, there, chips⟩
    refine ⟨before.resetForNewHand, ?_, (reset_status before).mpr chips⟩
    rw [resetForHand_getElem?, there, Option.map_some]

/-- The button moves to a survivor, and nothing else but the dealer marks changes. -/
theorem moveDealerButton_spec {game : PokerGame} (alive : game.survivorSeats ≠ []) :
    ∃ button ∈ game.survivorSeats, game.moveDealerButton =
      { game with
        dealerButton := button
        players := game.players.mapIdx fun seat player =>
          { player with isDealer := seat == button } } := by
  have positive : 0 < game.survivorSeats.length := List.length_pos_of_ne_nil alive
  have member : ∀ index, index < game.survivorSeats.length →
      game.survivorSeats.getD index 0 ∈ game.survivorSeats := by
    intro index inside
    rw [List.getD_eq_getElem _ _ inside]
    exact List.getElem_mem inside
  unfold moveDealerButton
  rw [if_neg (by simpa using alive)]
  refine ⟨_, ?_, rfl⟩
  split
  · obtain ⟨first, rest, listed⟩ := List.exists_cons_of_ne_nil alive
    simp [listed]
  · exact member _ (Nat.mod_lt _ positive)

theorem survivorSeats_withDealer (game : PokerGame) (button : Nat) :
    ({ game with
        dealerButton := button
        players := game.players.mapIdx fun seat player =>
          { player with isDealer := seat == button } } : PokerGame).survivorSeats =
      game.survivorSeats := by
  apply seatsWhere_congr
  apply List.ext_getElem?
  intro seat
  simp only [List.getElem?_map, List.getElem?_mapIdx, Option.map_map]
  rfl

theorem getD_ne_of_ne {seats : List Nat} (increasing : seats.Pairwise (· < ·)) {left right : Nat}
    (leftIn : left < seats.length) (rightIn : right < seats.length) (apart : left ≠ right) :
    seats.getD left 0 ≠ seats.getD right 0 := by
  rw [List.getD_eq_getElem _ _ leftIn, List.getD_eq_getElem _ _ rightIn]
  rcases Nat.lt_or_gt_of_ne apart with before | after
  · exact Nat.ne_of_lt (List.pairwise_iff_getElem.mp increasing left right leftIn rightIn before)
  · exact Ne.symm (Nat.ne_of_lt
      (List.pairwise_iff_getElem.mp increasing right left rightIn leftIn after))

/-- The blinds sit on two different survivors, and the first to act before the flop is
the first survivor after the big blind. -/
theorem blindSeats_spec {game : PokerGame} (two : 2 ≤ game.survivorSeats.length)
    (button : game.dealerButton ∈ game.survivorSeats) :
    let active := game.survivorSeats
    let first := if active.length = 2 then game.dealerButton
      else active.getD ((active.idxOf game.dealerButton + 3) % active.length) 0
    game.blindSeats.1 ∈ active ∧ game.blindSeats.2 ∈ active ∧
      game.blindSeats.1 ≠ game.blindSeats.2 ∧ first ∈ active ∧
      ∀ other ∈ active, Clockwise.place game.players.length game.blindSeats.2 first ≤
        Clockwise.place game.players.length game.blindSeats.2 other := by
  intro active first
  have size : 2 ≤ active.length := two
  have increasing : active.Pairwise (· < ·) := seatsWhere_increasing game _
  have inside : ∀ seat ∈ active, seat < game.players.length := fun seat => seatsWhere_lt
  have member : ∀ index, index < active.length → active.getD index 0 ∈ active := by
    intro index valid
    rw [List.getD_eq_getElem _ _ valid]
    exact List.getElem_mem valid
  have dealerIn : active.idxOf game.dealerButton < active.length := List.idxOf_lt_length_iff.mpr button
  have dealerAt : active.getD (active.idxOf game.dealerButton) 0 = game.dealerButton := by
    rw [List.getD_eq_getElem _ _ dealerIn]
    exact List.getElem_idxOf dealerIn
  generalize dealer : active.idxOf game.dealerButton = position at dealerIn dealerAt
  have mod : ∀ count, (position + count) % active.length < active.length := fun count =>
    Nat.mod_lt _ (by omega)
  by_cases headsUp : active.length = 2
  · have seats : game.blindSeats = (game.dealerButton, active.getD (1 - position) 0) := by
      simp only [blindSeats]
      rw [if_pos headsUp, dealer]
    have firstEq : first = game.dealerButton := if_pos headsUp
    have otherIn : 1 - position < active.length := by omega
    have back : (1 - position + 1) % active.length = position := by
      rw [headsUp]
      omega
    rw [seats, firstEq]
    refine ⟨button, member _ otherIn, ?_, button, ?_⟩
    · rw [← dealerAt]
      exact getD_ne_of_ne increasing dealerIn otherIn (by omega)
    · intro other present
      have next := Clockwise.next_entry_first increasing inside otherIn present
      rwa [back, dealerAt] at next
  · have seats : game.blindSeats = (active.getD ((position + 1) % active.length) 0,
        active.getD ((position + 2) % active.length) 0) := by
      simp only [blindSeats]
      rw [if_neg headsUp, dealer]
    have firstEq : first = active.getD ((position + 3) % active.length) 0 := by
      simp only [first, dealer]
      exact if_neg headsUp
    have distinct : (position + 1) % active.length ≠ (position + 2) % active.length := by
      intro same
      have shifted : ((position + 1) % active.length + 1) % active.length =
          (position + 1) % active.length := by
        rw [Nat.mod_add_mod]
        exact same.symm
      have bound := mod 1
      rcases Nat.lt_or_ge ((position + 1) % active.length + 1) active.length with small | large
      · rw [Nat.mod_eq_of_lt small] at shifted
        omega
      · rw [show (position + 1) % active.length + 1 = active.length by omega,
          Nat.mod_self] at shifted
        omega
    rw [seats, firstEq]
    refine ⟨member _ (mod 1), member _ (mod 2), ?_, member _ (mod 3), ?_⟩
    · exact getD_ne_of_ne increasing (mod 1) (mod 2) distinct
    · intro other present
      have next := Clockwise.next_entry_first increasing inside (mod 2) present
      rwa [Nat.mod_add_mod] at next

/-- Posting both blinds writes two seats, the pot, the current bet, the last raiser and
the two histories. -/
theorem postBlinds_spec {game : PokerGame} (two : 2 ≤ game.survivorSeats.length)
    {smallPlayer bigPlayer : Player}
    (smallAt : game.players[game.blindSeats.1]? = some smallPlayer)
    (bigAt : game.players[game.blindSeats.2]? = some bigPlayer)
    (apart : game.blindSeats.1 ≠ game.blindSeats.2) :
    let small := Player.bet { smallPlayer with isSmallBlind := true } game.smallBlind
    let big := Player.bet { bigPlayer with isBigBlind := true } game.bigBlind
    ∃ history db, game.postBlinds =
      { game with
        players := (game.players.set game.blindSeats.1 small.2).set game.blindSeats.2 big.2
        pot := game.pot + small.1 + big.1
        currentBet := big.1
        lastRaiserIndex := some game.blindSeats.2
        actionHistory := history
        db := db } := by
  intro small big
  have stillAt : (game.players.set game.blindSeats.1 small.2)[game.blindSeats.2]? =
      some bigPlayer := by
    rw [List.getElem?_set_ne apart, bigAt]
  unfold postBlinds
  rw [if_neg (by omega)]
  simp only [postBlind, smallAt]
  rw [stillAt]
  exact ⟨_, _, rfl⟩

end PokerGame

/-- The table right after a hand was opened with these dealer and blind seats. -/
structure OpenedHand (game : PokerGame) (button small big : Nat) (next : PokerGame) : Prop where
  apart : small ≠ big
  buttonAlive : game.HasChips button
  smallAlive : game.HasChips small
  bigAlive : game.HasChips big
  cards : ∀ player ∈ next.players, player.status ≠ .busted → player.holeCards.length = 2
  opened : ∀ seat, ∃ cards, next.players[seat]? = (game.players[seat]?).map fun player =>
    { game.openSeat button small big seat player with holeCards := cards }
  dealer : next.dealerButton = button
  pot : next.pot = (next.players.map Player.totalBetThisHand).sum
  currentBet : ∀ player, next.players[big]? = some player → next.currentBet = player.currentBet
  lastRaiser : next.lastRaiserIndex = some big
  unraised : next.hasBetOrRaiseThisRound = false
  running : next.bettingRoundComplete = false
  phase : next.currentPhase = .preflop
  board : next.communityCards = []
  blinds : next.smallBlind = game.smallBlind ∧ next.bigBlind = game.bigBlind
  deck : 32 ≤ next.deck.length
  turnAlive : game.HasChips next.currentPlayerIndex
  turnFirst : ∀ seat, game.HasChips seat →
    Clockwise.place game.players.length big next.currentPlayerIndex ≤
      Clockwise.place game.players.length big seat

namespace PokerGame

theorem ready_getElem? {game : PokerGame} {shuffle : Shuffle} {button : Nat}
    (moved : game.readyForBlinds shuffle =
      { game.resetForHand shuffle with
        dealerButton := button
        players := (game.resetForHand shuffle).players.mapIdx fun seat player =>
          { player with isDealer := seat == button } }) (seat : Nat) :
    (game.readyForBlinds shuffle).players[seat]? = (game.players[seat]?).map fun player =>
      { player.resetForNewHand with isDealer := seat == button } := by
  rw [moved]
  simp only [List.getElem?_mapIdx, resetForHand_getElem?, Option.map_map]
  rfl

/-- The players after the blinds, seat by seat. -/
theorem posted_getElem? {game : PokerGame} {shuffle : Shuffle} {button small big : Nat}
    (ready : ∀ seat : Nat, (game.readyForBlinds shuffle).players[seat]? =
      (game.players[seat]?).map fun player : Player =>
        { player.resetForNewHand with isDealer := seat == button })
    {smallPlayer bigPlayer : Player}
    (smallAt : (game.readyForBlinds shuffle).players[small]? = some smallPlayer)
    (bigAt : (game.readyForBlinds shuffle).players[big]? = some bigPlayer) (seat : Nat) :
    (((game.readyForBlinds shuffle).players.set small
        (Player.bet { smallPlayer with isSmallBlind := true } game.smallBlind).2).set big
        (Player.bet { bigPlayer with isBigBlind := true } game.bigBlind).2)[seat]? =
      (game.players[seat]?).map (game.openSeat button small big seat) := by
  have bigIn := (List.getElem?_eq_some_iff.mp bigAt).1
  rw [List.getElem?_set]
  split
  · rename_i atBig
    subst atBig
    rw [if_pos (by simpa using bigIn)]
    rw [ready, Option.map_eq_some_iff] at bigAt
    obtain ⟨before, there, rfl⟩ := bigAt
    simp [there, openSeat]
  · rename_i notBig
    rw [List.getElem?_set]
    split
    · rename_i atSmall
      subst atSmall
      rw [if_pos (List.getElem?_eq_some_iff.mp smallAt).1]
      rw [ready, Option.map_eq_some_iff] at smallAt
      obtain ⟨before, there, rfl⟩ := smallAt
      simp [there, openSeat, Ne.symm notBig]
    · rename_i notSmall
      rw [ready]
      cases game.players[seat]? with
      | none => rfl
      | some player => simp [openSeat, Ne.symm notBig, Ne.symm notSmall]

/-- Two rounds of dealing to players without cards, from a deck of at least 20. -/
theorem dealHoleCards_of_enough {game : PokerGame} (few : game.players.length ≤ 10)
    (enough : 20 ≤ game.deck.length) (empty : ∀ player ∈ game.players, player.holeCards = []) :
    ∃ players deck, game.dealHoleCards = .ok { game with players := players, deck := deck } ∧
      game.deck.length ≤ deck.length + 20 ∧
      List.Forall₂ (fun before after => SameButCards before after ∧
        after.holeCards.length = if before.status = .busted then 0 else 2) game.players players := by
  have count := List.length_filter_le (fun player => player.status != .busted) game.players
  have enoughOnce : (game.players.filter fun player => player.status != .busted).length ≤
      game.deck.length := by omega
  obtain ⟨once, firstDone, firstMatched⟩ := dealRound_of_enough enoughOnce
    (fun player member => by rw [empty player member]; decide)
  have onceLength : once.length = game.players.length := firstMatched.length_eq.symm
  have countOnce := List.length_filter_le (fun player => player.status != .busted) once
  have sizes : ∀ index (beforeIn : index < game.players.length) (afterIn : index < once.length),
      SameButCards game.players[index] once[index] ∧ once[index].holeCards.length =
        if game.players[index].status = .busted then 0 else 1 := by
    intro index beforeIn afterIn
    have related := (List.forall₂_iff_get.mp firstMatched).2 index beforeIn afterIn
    simp only [List.get_eq_getElem, empty _ (List.getElem_mem beforeIn), List.length_nil,
      Nat.zero_add] at related
    exact related
  have room : ∀ player ∈ once, player.holeCards.length < 2 := by
    intro player member
    obtain ⟨index, inside, rfl⟩ := List.getElem_of_mem member
    rw [(sizes index (by omega) inside).2]
    split <;> omega
  have enoughTwice : (once.filter fun player => player.status != .busted).length ≤
      (game.deck.drop (game.players.filter fun player =>
        player.status != .busted).length).length := by
    rw [List.length_drop]
    omega
  obtain ⟨twice, secondDone, secondMatched⟩ := dealRound_of_enough enoughTwice room
  refine ⟨twice, _, by simp only [dealHoleCards, firstDone, secondDone]; rfl, ?_, ?_⟩
  · simp only [List.length_drop]
    omega
  · apply List.forall₂_iff_get.mpr
    have twiceLength : once.length = twice.length := secondMatched.length_eq
    refine ⟨by omega, ?_⟩
    intro index beforeIn afterIn
    obtain ⟨⟨cards, first⟩, size⟩ := sizes index beforeIn (by omega)
    obtain ⟨⟨more, second⟩, total⟩ :=
      (List.forall₂_iff_get.mp secondMatched).2 index (by omega) afterIn
    simp only [List.get_eq_getElem] at second total ⊢
    have status : once[index].status = game.players[index].status := by rw [first]
    refine ⟨⟨more, by rw [second, first]⟩, ?_⟩
    simp only [total, size, status]
    split <;> rfl

theorem openSeat_holeCards (game : PokerGame) (button small big seat : Nat) (player : Player) :
    (game.openSeat button small big seat player).holeCards = [] := by
  unfold openSeat
  dsimp only
  split
  · rw [Player.bet_holeCards]
    rfl
  · split
    · rw [Player.bet_holeCards]
      rfl
    · rfl

/-- The id and the marks of a seat of a hand that was just opened. -/
theorem openSeat_marks {game : PokerGame} {button small big seat : Nat} (player : Player)
    (apart : small ≠ big) :
    (game.openSeat button small big seat player).id = player.id ∧
      (game.openSeat button small big seat player).isDealer = (seat == button) ∧
      (game.openSeat button small big seat player).isSmallBlind = (seat == small) ∧
      (game.openSeat button small big seat player).isBigBlind = (seat == big) := by
  unfold openSeat
  dsimp only
  by_cases atBig : seat = big
  · rw [if_pos atBig]
    simp [Player.resetForNewHand, atBig, Ne.symm apart]
  · rw [if_neg atBig]
    by_cases atSmall : seat = small
    · rw [if_pos atSmall]
      simp [Player.resetForNewHand, atSmall, apart]
    · rw [if_neg atSmall]
      simp [Player.resetForNewHand, atBig, atSmall]

/-- A player with chips is never left folded or busted by a blind. -/
theorem openSeat_inPlay (game : PokerGame) (button small big seat : Nat) (player : Player)
    (apart : 0 < player.chips ∨ (seat ≠ small ∧ seat ≠ big)) :
    ((game.openSeat button small big seat player).status != .busted &&
      (game.openSeat button small big seat player).status != .folded) =
      (player.resetForNewHand.status != .busted) := by
  rcases apart with solvent | ⟨notSmall, notBig⟩
  · have alive : player.resetForNewHand.status = .active := by
      simp [Player.resetForNewHand, solvent]
    unfold openSeat
    dsimp only
    split
    · rw [Player.bet_status _ _ (by simpa [Player.resetForNewHand] using solvent)]
      split <;> rw [alive] <;> rfl
    · split
      · rw [Player.bet_status _ _ (by simpa [Player.resetForNewHand] using solvent)]
        split <;> rw [alive] <;> rfl
      · rw [alive]
        rfl
  · unfold openSeat
    dsimp only
    rw [if_neg notBig, if_neg notSmall]
    unfold Player.resetForNewHand
    dsimp only
    split <;> rfl

theorem setFirstActorPreflop_spec {game : PokerGame} {active : List Nat}
    (listed : (game.seatsWhere fun player =>
      player.status != .busted && player.status != .folded) = active)
    (two : 2 ≤ active.length) (button : game.dealerButton ∈ active) :
    game.setFirstActorPreflop =
      { game with
        currentPlayerIndex := if active.length = 2 then game.dealerButton
          else active.getD ((active.idxOf game.dealerButton + 3) % active.length) 0 } := by
  unfold setFirstActorPreflop
  rw [listed]
  dsimp only
  rw [if_neg (by omega), if_neg (by simpa using button)]
  split <;> rfl

theorem openTurn_cards (game : PokerGame) :
    game.setFirstActorPreflop.recordHand.players = game.players ∧
      game.setFirstActorPreflop.recordHand.deck = game.deck ∧
      game.setFirstActorPreflop.recordHand.communityCards = game.communityCards := by
  unfold setFirstActorPreflop
  dsimp only
  split
  · exact ⟨rfl, rfl, rfl⟩
  · split
    · exact ⟨rfl, rfl, rfl⟩
    · split <;> exact ⟨rfl, rfl, rfl⟩

theorem sum_two_blinds {players : List Player} {small big : Nat} (smallPlayer bigPlayer : Player)
    (smallBlind bigBlind : Int) (apart : small ≠ big)
    (smallIn : small < players.length) (bigIn : big < players.length)
    (nothing : ∀ player ∈ players, player.totalBetThisHand = 0)
    (smallFresh : smallPlayer.totalBetThisHand = 0 ∧ 0 ≤ smallPlayer.chips)
    (bigFresh : bigPlayer.totalBetThisHand = 0 ∧ 0 ≤ bigPlayer.chips) :
    (((players.set small (smallPlayer.bet smallBlind).2).set big
        (bigPlayer.bet bigBlind).2).map Player.totalBetThisHand).sum =
      (smallPlayer.bet smallBlind).1 + (bigPlayer.bet bigBlind).1 := by
  have zero : (players.map Player.totalBetThisHand).sum = 0 := by
    apply List.sum_eq_zero
    intro total member
    obtain ⟨player, inside, rfl⟩ := List.mem_map.mp member
    exact nothing player inside
  have stillAt : (players.set small (smallPlayer.bet smallBlind).2)[big]? = some players[big] := by
    rw [List.getElem?_set_ne apart, List.getElem?_eq_getElem bigIn]
  rw [sum_map_set _ stillAt, sum_map_set _ (List.getElem?_eq_getElem smallIn), zero,
    (Player.bet_spec smallPlayer smallBlind smallFresh.2).2.2.2,
    (Player.bet_spec bigPlayer bigBlind bigFresh.2).2.2.2,
    nothing _ (List.getElem_mem smallIn), nothing _ (List.getElem_mem bigIn),
    smallFresh.1, bigFresh.1]
  omega

theorem ready_survivor {game : PokerGame} {shuffle : Shuffle} {button seat : Nat} {player : Player}
    (ready : ∀ seat : Nat, (game.readyForBlinds shuffle).players[seat]? =
      (game.players[seat]?).map fun player : Player =>
        { player.resetForNewHand with isDealer := seat == button })
    (here : (game.readyForBlinds shuffle).players[seat]? = some player)
    (alive : player.status ≠ .busted) :
    player.totalBetThisHand = 0 ∧ player.currentBet = 0 ∧ 0 < player.chips := by
  rw [ready, Option.map_eq_some_iff] at here
  obtain ⟨before, _, rfl⟩ := here
  exact ⟨rfl, rfl, (reset_status before).mp alive⟩

theorem readyForBlinds_seats {game : PokerGame} {shuffle : Shuffle}
    (alive : (game.resetForHand shuffle).survivorSeats ≠ []) :
    (game.readyForBlinds shuffle).survivorSeats = (game.resetForHand shuffle).survivorSeats ∧
      (game.readyForBlinds shuffle).dealerButton ∈ (game.resetForHand shuffle).survivorSeats ∧
      (game.readyForBlinds shuffle).players.length = game.players.length := by
  obtain ⟨button, buttonIn, moved⟩ := moveDealerButton_spec alive
  rw [readyForBlinds, moved]
  refine ⟨survivorSeats_withDealer _ button, buttonIn, ?_⟩
  simp [resetForHand]

theorem postBlinds_dealer (game : PokerGame) :
    game.postBlinds.dealerButton = game.dealerButton := by
  have blind : ∀ (game : PokerGame) (seat : Nat) (amount : Int) (mark : Player → Player)
      (name actionType : String),
      (game.postBlind seat amount mark name actionType).2.dealerButton = game.dealerButton := by
    intro game seat amount mark name actionType
    unfold postBlind
    split <;> rfl
  unfold postBlinds
  split
  · rfl
  · exact (blind _ _ _ _ _ _).trans (blind _ _ _ _ _ _)

/-- Everything up to the blinds, in terms of the table before the hand. -/
theorem postBlinds_opens (game : PokerGame) (shuffle : Shuffle)
    (two : 2 ≤ (game.resetForHand shuffle).survivorSeats.length) :
    let seats := (game.readyForBlinds shuffle).blindSeats
    let active := (game.resetForHand shuffle).survivorSeats
    ∃ button players history db paid, (game.readyForBlinds shuffle).postBlinds =
        { game.resetForHand shuffle with
          dealerButton := button
          players := players
          pot := (players.map Player.totalBetThisHand).sum
          currentBet := paid
          lastRaiserIndex := some seats.2
          actionHistory := history
          db := db } ∧
      seats.1 ≠ seats.2 ∧ seats.1 ∈ active ∧ seats.2 ∈ active ∧ button ∈ active ∧
      (∀ seat, players[seat]? =
        (game.players[seat]?).map (game.openSeat button seats.1 seats.2 seat)) ∧
      (∀ player, players[seats.2]? = some player → paid = player.currentBet) ∧
      (∀ small big, game.players[seats.1]? = some small → game.players[seats.2]? = some big →
        (players.map Player.totalBetThisHand).sum =
          max 0 (min game.smallBlind small.chips) + max 0 (min game.bigBlind big.chips)) ∧
      (let first := if active.length = 2 then button
        else active.getD ((active.idxOf button + 3) % active.length) 0
      first ∈ active ∧ ∀ other ∈ active,
        Clockwise.place game.players.length seats.2 first ≤
          Clockwise.place game.players.length seats.2 other) := by
  intro seats active
  have size : 2 ≤ active.length := two
  have alive : active ≠ [] := List.ne_nil_of_length_pos (by omega)
  obtain ⟨button, buttonIn, moved⟩ := moveDealerButton_spec alive
  have ready := ready_getElem? moved
  obtain ⟨survivors, _, length⟩ := readyForBlinds_seats alive
  have dealer : (game.readyForBlinds shuffle).dealerButton = button := by
    rw [readyForBlinds, moved]
  rw [show (game.resetForHand shuffle).survivorSeats = active from rfl] at survivors
  have stillTwo : 2 ≤ (game.readyForBlinds shuffle).survivorSeats.length := by
    rw [survivors]
    exact two
  have spec := blindSeats_spec stillTwo (by rw [dealer, survivors]; exact buttonIn)
  rw [survivors, dealer, length] at spec
  obtain ⟨smallIn, bigIn, apart, first⟩ := spec
  obtain ⟨smallPlayer, smallAt, smallAlive⟩ := mem_survivorSeats.mp (survivors ▸ smallIn)
  obtain ⟨bigPlayer, bigAt, bigAlive⟩ := mem_survivorSeats.mp (survivors ▸ bigIn)
  obtain ⟨smallTotal, _, smallChips⟩ := ready_survivor ready smallAt smallAlive
  obtain ⟨bigTotal, bigBet, bigChips⟩ := ready_survivor ready bigAt bigAlive
  have nothing : ∀ player ∈ (game.readyForBlinds shuffle).players,
      player.totalBetThisHand = 0 := by
    intro player member
    obtain ⟨seat, inside⟩ := List.mem_iff_getElem?.mp member
    rw [ready, Option.map_eq_some_iff] at inside
    obtain ⟨before, _, rfl⟩ := inside
    rfl
  obtain ⟨history, db, posted⟩ := postBlinds_spec stillTwo smallAt bigAt apart
  have blinds : (game.readyForBlinds shuffle).smallBlind = game.smallBlind ∧
      (game.readyForBlinds shuffle).bigBlind = game.bigBlind ∧
      (game.readyForBlinds shuffle).pot = 0 := by
    rw [readyForBlinds, moved]
    exact ⟨rfl, rfl, rfl⟩
  rw [blinds.1, blinds.2.1, blinds.2.2, Int.zero_add] at posted
  let smallMarked : Player := { smallPlayer with isSmallBlind := true }
  let bigMarked : Player := { bigPlayer with isBigBlind := true }
  have total := sum_two_blinds smallMarked bigMarked game.smallBlind game.bigBlind apart
    (List.getElem?_eq_some_iff.mp smallAt).1 (List.getElem?_eq_some_iff.mp bigAt).1 nothing
    ⟨smallTotal, Int.le_of_lt smallChips⟩ ⟨bigTotal, Int.le_of_lt bigChips⟩
  refine ⟨button, ((game.readyForBlinds shuffle).players.set seats.1
      (smallMarked.bet game.smallBlind).2).set seats.2 (bigMarked.bet game.bigBlind).2,
    history, db, (bigMarked.bet game.bigBlind).1, ?_, apart, smallIn, bigIn, buttonIn,
    posted_getElem? ready smallAt bigAt, ?_, ?_, first⟩
  · rw [total, posted]
    congr 1 <;> rw [readyForBlinds, moved]
  · intro player here
    rw [List.getElem?_set_self (by simpa using (List.getElem?_eq_some_iff.mp bigAt).1)] at here
    cases here
    rw [(Player.bet_spec bigMarked game.bigBlind (Int.le_of_lt bigChips)).2.2.1,
      show bigMarked.currentBet = 0 from bigBet, Int.zero_add]
  · intro small big smallBefore bigBefore
    rw [ready, smallBefore, Option.map_some, Option.some.injEq] at smallAt
    rw [ready, bigBefore, Option.map_some, Option.some.injEq] at bigAt
    rw [total, (Player.bet_spec smallMarked game.smallBlind (Int.le_of_lt smallChips)).1,
      (Player.bet_spec bigMarked game.bigBlind (Int.le_of_lt bigChips)).1,
      show smallMarked.chips = small.chips from (congrArg Player.chips smallAt).symm,
      show bigMarked.chips = big.chips from (congrArg Player.chips bigAt).symm]

/-- The seats still in after the blinds and the deal are the survivors of the reset. -/
theorem seats_after_deal {game dealt : PokerGame} {shuffle : Shuffle} {button small big : Nat}
    {players : List Player} (smallAlive : game.HasChips small) (bigAlive : game.HasChips big)
    (opened : ∀ seat, players[seat]? =
      (game.players[seat]?).map (game.openSeat button small big seat))
    (matched : List.Forall₂ SameButCards players dealt.players) :
    (dealt.seatsWhere fun player => player.status != .busted && player.status != .folded) =
      (game.resetForHand shuffle).survivorSeats := by
  apply seatsWhere_congr
  rw [map_of_forall₂ matched (by rintro before after ⟨cards, rfl⟩; rfl)]
  apply List.ext_getElem?
  intro seat
  rw [List.getElem?_map, List.getElem?_map, opened, resetForHand_getElem?, Option.map_map,
    Option.map_map]
  cases here : game.players[seat]? with
  | none => rfl
  | some player =>
      have solvent : 0 < player.chips ∨ (seat ≠ small ∧ seat ≠ big) := by
        by_cases atSmall : seat = small
        · obtain ⟨other, there, chips⟩ := smallAlive
          rw [← atSmall, here] at there
          cases there
          exact Or.inl chips
        · by_cases atBig : seat = big
          · obtain ⟨other, there, chips⟩ := bigAlive
            rw [← atBig, here] at there
            cases there
            exact Or.inl chips
          · exact Or.inr ⟨atSmall, atBig⟩
      exact congrArg some (openSeat_inPlay game button small big seat player solvent)

/-- `start_new_hand` always returns at a table of at most ten: either fewer than two
players have chips and the game is finished, or a hand is open. -/
theorem startNewHand_spec (game : PokerGame) (shuffle : Shuffle)
    (few : game.players.length ≤ 10) :
    ((game.resetForHand shuffle).survivorSeats.length < 2 ∧
        game.startNewHand shuffle =
          .ok { game.resetForHand shuffle with currentPhase := .finished }) ∨
      ∃ button next, game.startNewHand shuffle = .ok next ∧
        OpenedHand game button (game.readyForBlinds shuffle).blindSeats.1
          (game.readyForBlinds shuffle).blindSeats.2 next := by
  by_cases lone : (game.resetForHand shuffle).survivorSeats.length < 2
  · refine Or.inl ⟨lone, ?_⟩
    unfold startNewHand
    exact if_pos lone
  have two : 2 ≤ (game.resetForHand shuffle).survivorSeats.length := by omega
  obtain ⟨button, players, history, db, paid, posted, apart, smallIn, bigIn, buttonIn, opened,
    paidBig, _, firstIn, firstOrder⟩ := postBlinds_opens game shuffle two
  generalize (game.readyForBlinds shuffle).blindSeats = seats at *
  obtain ⟨small, big⟩ := seats
  dsimp only at *
  have length : players.length = game.players.length := by
    have listed : players = game.players.mapIdx (game.openSeat button small big) := by
      apply List.ext_getElem?
      intro seat
      rw [opened, List.getElem?_mapIdx]
    rw [listed, List.length_mapIdx]
  have empty : ∀ player ∈ players, player.holeCards = [] := by
    intro player member
    obtain ⟨seat, here⟩ := List.mem_iff_getElem?.mp member
    rw [opened, Option.map_eq_some_iff] at here
    obtain ⟨before, _, rfl⟩ := here
    exact openSeat_holeCards _ _ _ _ _ _
  have fullDeck : (game.readyForBlinds shuffle).postBlinds.deck.length = 52 := by
    rw [posted]
    exact shuffle.length_cards
  have seatsFew : (game.readyForBlinds shuffle).postBlinds.players.length ≤ 10 := by
    rw [posted]
    exact length ▸ few
  obtain ⟨dealt, deck, done, deckLeft, matched⟩ :=
    dealHoleCards_of_enough seatsFew (by omega) (by rw [posted]; exact empty)
  have onlyCards : List.Forall₂ SameButCards players dealt := by
    rw [posted] at matched
    exact matched.imp fun before after related => related.1
  have dealtTotals : (dealt.map Player.totalBetThisHand).sum =
      (players.map Player.totalBetThisHand).sum := by
    rw [map_of_forall₂ onlyCards (by rintro before after ⟨cards, rfl⟩; rfl)]
  let afterDeal : PokerGame :=
    { (game.readyForBlinds shuffle).postBlinds with players := dealt, deck := deck }
  have seated : (afterDeal.seatsWhere fun player =>
      player.status != .busted && player.status != .folded) =
        (game.resetForHand shuffle).survivorSeats :=
    seats_after_deal (mem_reset_survivors.mp smallIn) (mem_reset_survivors.mp bigIn) opened onlyCards
  have dealer : afterDeal.dealerButton = button := by
    simp only [afterDeal, posted]
  have turn := setFirstActorPreflop_spec seated two (dealer ▸ buttonIn)
  refine Or.inr ⟨button, afterDeal.setFirstActorPreflop.recordHand, ?_, ?_⟩
  · unfold startNewHand
    dsimp only
    rw [if_neg lone]
    rw [show (game.resetForHand shuffle).moveDealerButton.postBlinds.dealHoleCards =
      .ok afterDeal from done]
  · rw [turn]
    simp only [afterDeal]
    rw [posted] at deckLeft ⊢
    dsimp only [recordHand]
    exact
      { apart := apart
        buttonAlive := mem_reset_survivors.mp buttonIn
        smallAlive := mem_reset_survivors.mp smallIn
        bigAlive := mem_reset_survivors.mp bigIn
        cards := by
          intro player member alive
          obtain ⟨seat, inside, rfl⟩ := List.getElem_of_mem member
          have dealtTo := (List.forall₂_iff_get.mp matched).2 seat
            (by rw [matched.length_eq]; exact inside) inside
          obtain ⟨⟨held, same⟩, size⟩ := dealtTo
          simp only [List.get_eq_getElem] at same size
          rw [size, if_neg]
          intro busted
          exact alive (by rw [same]; exact busted)
        opened := by
          intro seat
          obtain ⟨cards, here⟩ := getElem?_of_forall₂ onlyCards (fun _ _ same => same) seat
          refine ⟨cards, ?_⟩
          rw [here, opened, Option.map_map]
          rfl
        dealer := rfl
        pot := dealtTotals.symm
        currentBet := by
          intro player here
          obtain ⟨cards, there⟩ := getElem?_of_forall₂ onlyCards (fun _ _ same => same) big
          rw [there, Option.map_eq_some_iff] at here
          obtain ⟨before, at_big, rfl⟩ := here
          exact paidBig before at_big
        lastRaiser := rfl
        unraised := rfl
        running := rfl
        phase := rfl
        board := rfl
        blinds := ⟨rfl, rfl⟩
        deck := by
          have := shuffle.length_cards
          change shuffle.cards.length ≤ deck.length + 20 at deckLeft
          change 32 ≤ deck.length
          omega
        turnAlive := mem_reset_survivors.mp firstIn
        turnFirst := fun seat chips => firstOrder seat (mem_reset_survivors.mpr chips) }

theorem startNewHand_returns (game : PokerGame) (shuffle : Shuffle)
    (few : game.players.length ≤ 10) : ∃ next, game.startNewHand shuffle = .ok next := by
  rcases game.startNewHand_spec shuffle few with ⟨_, finished⟩ | ⟨_, next, returned, _⟩
  · exact ⟨_, finished⟩
  · exact ⟨next, returned⟩

end PokerGame

namespace OpenedHand

variable {game next : PokerGame} {button small big : Nat}

theorem player_of_seat (hand : OpenedHand game button small big next) {seat : Nat}
    {opened : Player} (there : next.players[seat]? = some opened) :
    ∃ player cards, game.players[seat]? = some player ∧
      opened = { game.openSeat button small big seat player with holeCards := cards } := by
  obtain ⟨cards, image⟩ := hand.opened seat
  rw [image, Option.map_eq_some_iff] at there
  obtain ⟨player, here, rfl⟩ := there
  exact ⟨player, cards, here, rfl⟩

/-- What the blinds and the deal leave alone can be read off the table before the hand. -/
theorem map_eq {β : Type} (hand : OpenedHand game button small big next) {f g : Player → β}
    (agree : ∀ (seat : Nat) player, game.players[seat]? = some player → ∀ cards,
      f { game.openSeat button small big seat player with holeCards := cards } = g player) :
    next.players.map f = game.players.map g := by
  apply List.ext_getElem?
  intro seat
  obtain ⟨cards, image⟩ := hand.opened seat
  rw [List.getElem?_map, List.getElem?_map, image]
  cases here : game.players[seat]? with
  | none => rfl
  | some player => exact congrArg some (agree seat player here cards)

theorem length (hand : OpenedHand game button small big next) :
    next.players.length = game.players.length := by
  have units : next.players.map (fun _ => ()) = game.players.map fun _ => () :=
    hand.map_eq fun _ _ _ _ => rfl
  simpa using congrArg List.length units

end OpenedHand

end Holdem
