import Holdem.ActionItems
import Holdem.StatusLaws

set_option autoImplicit false

/- The action history on a screen tells what happened at the table. -/
namespace Holdem

/-! ### What happened -/

def Acted.item (acted : Acted) : HistoryItem :=
  match acted.action with
  | .fold => .fold acted.playerId
  | .check => .check acted.playerId
  | .call => .call acted.playerId acted.amount
  | .raise => .raise acted.playerId acted.amount
  | .allIn => .allIn acted.playerId acted.amount
  | .unknown text => .generic text.toList

namespace PokerGame

def stakedAt (game : PokerGame) (seat : Nat) : Int :=
  ((game.players[seat]?).map Player.totalBetThisHand).getD 0

/-- The blinds of a hand that has just been opened, as its players hold them. -/
def blindItems (opened : PokerGame) : List HistoryItem :=
  (opened.seatsWhere Player.isSmallBlind).map
      (fun seat => .smallBlind seat (opened.stakedAt seat)) ++
    (opened.seatsWhere Player.isBigBlind).map
      fun seat => .bigBlind seat (opened.stakedAt seat)

def streetItems (before after : PokerGame) : List HistoryItem :=
  if after.communityCards = before.communityCards then []
  else
    let cards := after.communityCards.map fun card => card.str.toList
    match after.currentPhase with
    | .flop => [.flop cards]
    | .turn => [.turn (cards.getLastD [])]
    | .river => [.river (cards.getLastD [])]
    | _ => []

/-- What a request makes happen. A showdown is told in the game's own words. -/
def happened (game : PokerGame) (request : Request) : List HistoryItem :=
  let after := (game.serve request).2
  match request with
  | .call (.startNewHand _) => after.blindItems
  | .call (.processPlayerAction _ _ _) => ((game.acted request).map Acted.item).toList
  | .call .advanceToNextPlayer => []
  | .call .advanceToNextPhase => game.streetItems after
  | .call .conductShowdown =>
      (after.actionHistory.drop game.actionHistory.length).map fun line => .generic line.toList
  | .getLlmGameState _ => []

def happenedAll : PokerGame → List Request → List HistoryItem
  | _, [] => []
  | game, request :: rest => game.happened request ++ (game.serve request).2.happenedAll rest

variable {game : PokerGame} {py : PyText}

/-! ### The line of an action -/

theorem playerLine_words (count : Nat) {words : String} {rest : List Char}
    (spaced : words.toList = ' ' :: rest) :
    (toString "Player " ++ toString (count : Int) ++ toString words).toList =
      playerLine count rest := by
  show ("Player " ++ count.repr ++ words).toList = _
  rw [String.toList_append, String.toList_append, spaced, List.append_assoc]
  rfl

theorem playerLine_amount (count : Nat) {words : String} {rest : List Char}
    (spaced : words.toList = ' ' :: rest) {amount : Int} (counts : 0 ≤ amount) :
    (toString "Player " ++ toString (count : Int) ++ toString words ++ toString amount).toList =
      playerLine count (rest ++ amount.toNat.repr.toList) := by
  obtain ⟨number, rfl⟩ := Int.eq_ofNat_of_zero_le counts
  rw [String.toList_append, playerLine_words count spaced]
  show playerLine count rest ++ number.repr.toList = playerLine count (rest ++ number.repr.toList)
  unfold playerLine
  simp only [List.append_assoc, List.cons_append]

theorem bet_counts {player : Player} (solvent : 0 ≤ player.chips) (bet : 0 ≤ player.currentBet)
    (amount : Int) : 0 ≤ (player.bet amount).1 ∧ 0 ≤ (player.bet amount).2.currentBet := by
  obtain ⟨paid, _, current, _⟩ := player.bet_spec amount solvent
  omega

theorem performAction_item (documented : py.Documented) {player : Player} {count : Nat}
    {amount : Int} {action : Action} {done : Performed} (solvent : 0 ≤ player.chips)
    (bet : 0 ≤ player.currentBet)
    (performed : game.performAction player count action amount = some done) :
    ∃ acted, game.actedBetween count action player done.player = some acted ∧
      py.createActionHistoryItem done.description.toList = acted.item := by
  have digits := documented.digits
  have number : ∀ {value : Int}, 0 ≤ value → ((value.toNat : Nat) : Int) = value :=
    fun counts => Int.toNat_of_nonneg counts
  cases action with
  | fold =>
      cases performed
      exact ⟨_, rfl, (congrArg _ (playerLine_words count rfl)).trans (item_fold digits count)⟩
  | check =>
      simp only [performAction] at performed
      split at performed
      · cases performed
      · cases performed
        exact ⟨_, rfl, (congrArg _ (playerLine_words count rfl)).trans (item_check digits count)⟩
  | call =>
      simp only [performAction] at performed
      split at performed
      · cases performed
        refine ⟨⟨count, .check, 0⟩, if_pos (by omega), ?_⟩
        exact (congrArg _ (playerLine_words count rfl)).trans (item_check digits count)
      · rename_i behind
        split at performed
        · cases performed
        · cases performed
          have taken := bet_paid player (game.currentBet - player.currentBet)
          have counts := (bet_counts solvent bet (game.currentBet - player.currentBet)).1
          refine ⟨⟨count, .call, (player.bet (game.currentBet - player.currentBet)).1⟩, ?_, ?_⟩
          · rw [actedBetween, if_neg (by omega), taken]
          · refine (congrArg _ (playerLine_amount count rfl counts)).trans ?_
            refine (item_call digits count _).trans ?_
            rw [number counts]
            rfl
  | raise =>
      simp only [performAction] at performed
      split at performed
      · cases performed
      · cases performed
        have counts :=
          (bet_counts solvent bet (game.currentBet - player.currentBet + amount)).2
        refine ⟨_, rfl, (congrArg _ (playerLine_amount count rfl counts)).trans ?_⟩
        refine (item_raise digits count _).trans ?_
        rw [number counts]
        rfl
  | allIn =>
      have taken := bet_paid player player.chips
      have counts := (bet_counts solvent bet player.chips).1
      have read : py.createActionHistoryItem (toString "Player " ++ toString (count : Int) ++
          toString " went all-in with " ++ toString (player.bet player.chips).1).toList =
          .allIn count (player.bet player.chips).1 := by
        refine (congrArg _ (playerLine_amount count rfl counts)).trans ?_
        refine (item_allIn digits count _).trans ?_
        rw [number counts]
      simp only [performAction] at performed
      split at performed
      · cases performed
      · split at performed
        · cases performed
          exact ⟨⟨count, .allIn, (player.bet player.chips).1⟩, by rw [actedBetween, taken], read⟩
        · cases performed
          exact ⟨⟨count, .allIn, (player.bet player.chips).1⟩, by rw [actedBetween, taken], read⟩
  | unknown text => cases performed

/-! ### The lines of a request -/

/-- The lines added are read as these items. -/
def Shows (py : PyText) (before after : PokerGame) (items : List HistoryItem) : Prop :=
  ∃ lines, after.actionHistory = before.actionHistory ++ lines ∧
    lines.map (fun line => py.createActionHistoryItem line.toList) = items

theorem shows_of_same {before after : PokerGame}
    (written : after.actionHistory = before.actionHistory) : Shows py before after [] :=
  ⟨[], by rw [written, List.append_nil], rfl⟩

theorem Shows.trans {first second third : PokerGame} {here later : List HistoryItem}
    (shows : Shows py first second here) (then_ : Shows py second third later) :
    Shows py first third (here ++ later) := by
  obtain ⟨lines, written, read⟩ := shows
  obtain ⟨more, writtenToo, readToo⟩ := then_
  refine ⟨lines ++ more, ?_, ?_⟩
  · rw [writtenToo, written, List.append_assoc]
  · rw [List.map_append, read, readToo]

/-- Nobody's chips or bet are negative. -/
structure Counts (game : PokerGame) : Prop where
  chips : ∀ player ∈ game.players, 0 ≤ player.chips
  bets : ∀ player ∈ game.players, 0 ≤ player.currentBet

theorem processPlayerAction_shows (documented : py.Documented) (counts : Counts game)
    (playerId : Int) (action : Action) (amount : Int) :
    Shows py game (game.processPlayerAction playerId action amount).2
      (((game.acted (.call (.processPlayerAction playerId action amount))).map
        Acted.item).toList) := by
  rcases game.processPlayerAction_cases playerId action amount with rejected |
    ⟨seat, player, done, here, id, turn, _, found, performed, _, accepted⟩
  · have nothing : game.acted (.call (.processPlayerAction playerId action amount)) = none := by
      unfold acted
      dsimp only
      rw [rejected]
      rfl
    rw [nothing, rejected]
    exact shows_of_same rfl
  · obtain ⟨history, players⟩ :=
      settle_frame (game.commitAction done playerId action amount)
    have member := List.mem_of_getElem? here
    have after : ((game.commitAction done playerId action amount).advanceToNextPlayer
        |>.checkBettingRoundComplete).getPlayer playerId = some done.player := by
      unfold getPlayer
      rw [players]
      exact getPlayer_putPlayer found ((performAction_keeps performed).1.trans id)
    obtain ⟨acted, between, read⟩ : ∃ acted,
        game.actedBetween playerId action player done.player = some acted ∧
          py.createActionHistoryItem done.description.toList = acted.item := by
      rw [turn] at performed ⊢
      exact performAction_item documented (counts.chips player member)
        (counts.bets player member) performed
    have told : game.acted (.call (.processPlayerAction playerId action amount)) =
        some acted := by
      unfold PokerGame.acted
      dsimp only
      rw [accepted, if_pos rfl, found, after]
      exact between
    rw [told, accepted]
    exact ⟨[done.description], history, congrArg (fun item => [item]) read⟩

theorem drawCards_length {count : Nat} {deck drawn rest : List Card}
    (drew : drawCards count deck = .ok (drawn, rest)) : drawn.length = count := by
  by_cases enough : count ≤ deck.length
  · rw [drawCards_of_enough enough] at drew
    cases drew
    exact List.length_take_of_le enough
  · rw [drawCards_of_short (by omega)] at drew
    cases drew

theorem dealStreet_shows {dealt : PokerGame} {count : Nat} {phase : GamePhase}
    {describe : List Card → String} {item : List Card → HistoryItem} (positive : 0 < count)
    (read : ∀ board, board ≠ [] →
      py.createActionHistoryItem (describe board).toList = item board)
    (returned : game.dealStreet count phase describe = .ok dealt) :
    Shows py game dealt [item dealt.communityCards] ∧
      dealt.communityCards ≠ game.communityCards ∧ dealt.currentPhase = game.currentPhase := by
  unfold dealStreet at returned
  split at returned
  · cases returned
  · split at returned
    · cases returned
    · rename_i drawn remaining drew
      cases returned
      have grown : drawn ≠ [] := by
        intro empty
        have length := drawCards_length drew
        rw [empty, List.length_nil] at length
        omega
      refine ⟨⟨[_], rfl, ?_⟩, ?_, rfl⟩
      · rw [List.map_singleton, read _ (List.append_ne_nil_of_right_ne_nil _ grown)]
      · intro same
        exact grown (List.append_right_eq_self.mp same)

theorem advanceToNextPhase_shows (documented : py.Documented) {moved : Bool × PokerGame}
    (returned : game.advanceToNextPhase = .ok moved) :
    Shows py game moved.2 (game.streetItems moved.2) := by
  have nothing : ∀ phase : GamePhase,
      Shows py game { game with currentPhase := phase }
        (game.streetItems { game with currentPhase := phase }) := by
    intro phase
    unfold streetItems
    rw [if_pos rfl]
    exact shows_of_same rfl
  have street : ∀ (count : Nat) (phase : GamePhase) (describe : List Card → String)
      (item : List Card → HistoryItem), 0 < count →
      (∀ board, board ≠ [] → py.createActionHistoryItem (describe board).toList = item board) →
      (∀ after : PokerGame, after.currentPhase = phase →
        after.communityCards ≠ game.communityCards →
          game.streetItems after = [item after.communityCards]) →
      ({ game with currentPhase := phase }.dealStreet count phase describe).map
        (fun dealt => (true, startNewBettingRound dealt)) = .ok moved →
      Shows py game moved.2 (game.streetItems moved.2) := by
    intro count phase describe item positive read told opened
    cases dealing : { game with currentPhase := phase }.dealStreet count phase describe with
    | error raised =>
        rw [dealing] at opened
        cases opened
    | ok dealt =>
        rw [dealing] at opened
        cases opened
        obtain ⟨⟨lines, written, shown⟩, grown, turned⟩ := dealStreet_shows positive read dealing
        obtain ⟨seat, complete, frame, _⟩ := dealt.startNewBettingRound_spec
        have items := told dealt.startNewBettingRound (by rw [frame]; exact turned)
          (by rw [frame]; exact grown)
        rw [items]
        refine ⟨lines, ?_, ?_⟩
        · rw [startNewBettingRound_history]
          exact written
        · rw [shown, frame]
  unfold advanceToNextPhase at returned
  split at returned
  · cases returned
    exact nothing game.currentPhase
  · split at returned
    · cases returned
      exact nothing .showdown
    · unfold changePhase at returned
      split at returned
      · refine street 3 .flop _ (fun board => .flop (board.map fun card => card.str.toList))
          (by decide) (fun board dealt => item_flop_cards documented dealt) ?_ returned
        intro after phase grown
        rw [streetItems, if_neg grown, phase]
      · refine street 1 .turn _
          (fun board => .turn ((board.map fun card => card.str.toList).getLastD []))
          (by decide) (fun board dealt => (item_last_card documented dealt).1) ?_ returned
        intro after phase grown
        rw [streetItems, if_neg grown, phase]
      · refine street 1 .river _
          (fun board => .river ((board.map fun card => card.str.toList).getLastD []))
          (by decide) (fun board dealt => (item_last_card documented dealt).2) ?_ returned
        intro after phase grown
        rw [streetItems, if_neg grown, phase]
      · cases returned
        exact nothing .showdown
      · cases returned
        exact nothing game.currentPhase
      · cases returned
        exact nothing game.currentPhase

/-! ### The blinds -/

def blindLine (seat : Nat) (name : String) (paid : Int) : String :=
  s!"Player {seat} posted {name} {paid}"

theorem blindLine_items (documented : py.Documented) (seat : Nat) {paid : Int} (counts : 0 ≤ paid) :
    py.createActionHistoryItem (blindLine seat "small blind" paid).toList = .smallBlind seat paid ∧
      py.createActionHistoryItem (blindLine seat "big blind" paid).toList = .bigBlind seat paid := by
  obtain ⟨number, rfl⟩ := Int.eq_ofNat_of_zero_le counts
  have spelt : ∀ name : String, (blindLine seat name number).toList =
      playerLine seat (("posted ".toList ++ (name.toList ++ [' '])) ++ number.repr.toList) := by
    intro name
    have posted : " posted ".toList = ' ' :: "posted ".toList := rfl
    have space : " ".toList = [' '] := rfl
    show ("Player " ++ seat.repr ++ " posted " ++ name ++ " " ++ number.repr).toList = _
    unfold playerLine
    simp only [String.toList_append, List.append_assoc]
    rw [posted, space, List.cons_append]
  have small : "posted ".toList ++ ("small blind".toList ++ [' ']) =
      "posted small blind ".toList := by decide
  have big : "posted ".toList ++ ("big blind".toList ++ [' ']) =
      "posted big blind ".toList := by decide
  rw [spelt, spelt, small, big]
  exact ⟨item_smallBlind documented.digits seat number, item_bigBlind documented.digits seat number⟩

/-- The two lines of the blinds say who posted what. -/
theorem postBlinds_lines (two : 2 ≤ game.survivorSeats.length) {small big : Player}
    (smallAt : game.players[game.blindSeats.1]? = some small)
    (bigAt : game.players[game.blindSeats.2]? = some big)
    (apart : game.blindSeats.1 ≠ game.blindSeats.2) (smallSolvent : 0 ≤ small.chips)
    (bigSolvent : 0 ≤ big.chips) :
    game.postBlinds.actionHistory = game.actionHistory ++
      [blindLine game.blindSeats.1 "small blind" (max 0 (min game.smallBlind small.chips)),
        blindLine game.blindSeats.2 "big blind" (max 0 (min game.bigBlind big.chips))] := by
  have stillAt : (game.players.set game.blindSeats.1
      (Player.bet { small with isSmallBlind := true } game.smallBlind).2)[game.blindSeats.2]? =
        some big := by
    rw [List.getElem?_set_ne apart, bigAt]
  have smallPaid := (Player.bet_spec { small with isSmallBlind := true } game.smallBlind
    smallSolvent).1
  have bigPaid := (Player.bet_spec { big with isBigBlind := true } game.bigBlind bigSolvent).1
  unfold postBlinds
  rw [if_neg (by omega)]
  simp only [postBlind, smallAt]
  rw [stillAt]
  dsimp only
  rw [List.append_assoc, List.singleton_append, smallPaid, bigPaid]
  rfl

theorem startNewHand_history {next : PokerGame} {shuffle : Shuffle}
    (two : 2 ≤ (game.resetForHand shuffle).survivorSeats.length)
    (returned : game.startNewHand shuffle = .ok next) :
    next.actionHistory = (game.readyForBlinds shuffle).postBlinds.actionHistory := by
  unfold startNewHand at returned
  dsimp only at returned
  rw [if_neg (by omega)] at returned
  split at returned
  · cases returned
  · rename_i dealt dealing
    cases returned
    have same : dealt.actionHistory =
        (game.readyForBlinds shuffle).postBlinds.actionHistory := by
      unfold dealHoleCards at dealing
      split at dealing
      · cases dealing
      · split at dealing
        · cases dealing
        · cases dealing
          rfl
    rw [← same]
    unfold recordHand setFirstActorPreflop
    dsimp only
    split
    · rfl
    · split
      · rfl
      · split <;> rfl

theorem seatsWhere_single {test : Player → Bool} {seat : Nat}
    (only : ∀ other, (∃ player, game.players[other]? = some player ∧ test player = true) ↔
      other = seat) : game.seatsWhere test = [seat] := by
  have increasing : (game.seatsWhere test).Pairwise (· < ·) := seatsWhere_increasing game test
  have members : ∀ other, other ∈ game.seatsWhere test ↔ other = seat :=
    fun other => mem_seatsWhere.trans (only other)
  have nodup : (game.seatsWhere test).Nodup := increasing.imp Nat.ne_of_lt
  have permuted : (game.seatsWhere test).Perm [seat] :=
    (List.perm_ext_iff_of_nodup nodup (List.nodup_singleton seat)).mpr fun other => by
      rw [members, List.mem_singleton]
  exact List.perm_singleton.mp permuted

/-- What each seat has put in once the blinds are in. -/
theorem openSeat_total {button small big seat : Nat} {player : Player} (chips : 0 ≤ player.chips) :
    (game.openSeat button small big seat player).totalBetThisHand =
      if seat = big then max 0 (min game.bigBlind player.chips)
      else if seat = small then max 0 (min game.smallBlind player.chips) else 0 := by
  have posting : ∀ (fresh : Player) (blind : Int), fresh.chips = player.chips →
      fresh.totalBetThisHand = 0 →
      (fresh.bet blind).2.totalBetThisHand = max 0 (min blind player.chips) := by
    intro fresh blind same nothing
    obtain ⟨paid, _, _, total⟩ := fresh.bet_spec blind (same ▸ chips)
    rw [total, paid, nothing, same, Int.zero_add]
  unfold openSeat
  dsimp only
  split
  · exact posting _ _ rfl rfl
  · split
    · exact posting _ _ rfl rfl
    · rfl

/-- The items of the blinds, seat by seat. -/
theorem blindItems_opened {next : PokerGame} {button smallSeat bigSeat : Nat} {small big : Player}
    (hand : OpenedHand game button smallSeat bigSeat next)
    (smallAt : game.players[smallSeat]? = some small) (bigAt : game.players[bigSeat]? = some big)
    (smallSolvent : 0 ≤ small.chips) (bigSolvent : 0 ≤ big.chips) :
    next.blindItems =
      [.smallBlind smallSeat (max 0 (min game.smallBlind small.chips)),
        .bigBlind bigSeat (max 0 (min game.bigBlind big.chips))] := by
  have marked : ∀ (test : Player → Bool) (seat : Nat) (player : Player),
      game.players[seat]? = some player →
      (∀ other before cards, test
        { game.openSeat button smallSeat bigSeat other before with holeCards := cards } =
          (other == seat)) →
      next.seatsWhere test = [seat] := by
    intro test seat player here marks
    apply seatsWhere_single
    intro other
    constructor
    · rintro ⟨opened, there, passes⟩
      obtain ⟨before, cards, _, rfl⟩ := hand.player_of_seat there
      rw [marks] at passes
      exact beq_iff_eq.mp passes
    · rintro rfl
      obtain ⟨cards, there⟩ := hand.opened other
      rw [here] at there
      exact ⟨_, there, (marks other player cards).trans (beq_self_eq_true other)⟩
  have staked : ∀ (seat : Nat) (player : Player), game.players[seat]? = some player →
      next.stakedAt seat =
        (game.openSeat button smallSeat bigSeat seat player).totalBetThisHand := by
    intro seat player here
    obtain ⟨cards, there⟩ := hand.opened seat
    unfold stakedAt
    rw [there, here]
    rfl
  have smallMark := marked Player.isSmallBlind smallSeat small smallAt
    fun other before _ => (openSeat_marks before hand.apart).2.2.1
  have bigMark := marked Player.isBigBlind bigSeat big bigAt
    fun other before _ => (openSeat_marks before hand.apart).2.2.2
  unfold blindItems
  rw [smallMark, bigMark, List.map_singleton, List.map_singleton, staked smallSeat small smallAt,
    staked bigSeat big bigAt, openSeat_total smallSolvent, openSeat_total bigSolvent,
    if_neg hand.apart, if_pos rfl, if_pos rfl]
  rfl

theorem startNewHand_shows (documented : py.Documented) (solvent : Solvent game)
    {next : PokerGame} {shuffle : Shuffle} (returned : game.startNewHand shuffle = .ok next) :
    Shows py game next next.blindItems := by
  rcases game.startNewHand_spec shuffle solvent.few with ⟨_, finished⟩ |
    ⟨button, opened, started, hand⟩
  · rw [returned] at finished
    cases finished
    have unmarked : ∀ test : Player → Bool, (∀ player, test (Player.resetForNewHand player) = false) →
        seatsWhere { game.resetForHand shuffle with currentPhase := .finished } test = [] := by
      intro test never
      apply List.eq_nil_iff_forall_not_mem.mpr
      intro seat member
      obtain ⟨player, here, passes⟩ := mem_seatsWhere.mp member
      obtain ⟨before, _, rfl⟩ := List.mem_map.mp (List.mem_of_getElem? here)
      rw [never] at passes
      cases passes
    have none : blindItems { game.resetForHand shuffle with currentPhase := .finished } = [] := by
      unfold blindItems
      rw [unmarked _ fun _ => rfl, unmarked _ fun _ => rfl]
      rfl
    rw [none]
    exact shows_of_same rfl
  · rw [returned] at started
    cases started
    have two : 2 ≤ (game.resetForHand shuffle).survivorSeats.length := by
      by_contra lone
      have ended : game.startNewHand shuffle =
          .ok { game.resetForHand shuffle with currentPhase := .finished } := by
        unfold startNewHand
        exact if_pos (by omega)
      rw [returned] at ended
      cases ended
      cases hand.phase
    have alive : (game.resetForHand shuffle).survivorSeats ≠ [] :=
      List.ne_nil_of_length_pos (by omega)
    obtain ⟨dealer, _, moved⟩ := moveDealerButton_spec alive
    have ready := ready_getElem? moved
    obtain ⟨survivors, _⟩ := readyForBlinds_seats alive
    obtain ⟨small, smallSeat, smallChips⟩ := hand.smallAlive
    obtain ⟨big, bigSeat, bigChips⟩ := hand.bigAlive
    have lines := postBlinds_lines (by rw [survivors]; exact two)
      ((ready _).trans (congrArg _ smallSeat)) ((ready _).trans (congrArg _ bigSeat)) hand.apart
      (Int.le_of_lt smallChips) (Int.le_of_lt bigChips)
    have before : (game.readyForBlinds shuffle).actionHistory = game.actionHistory ∧
        (game.readyForBlinds shuffle).smallBlind = game.smallBlind ∧
        (game.readyForBlinds shuffle).bigBlind = game.bigBlind := by
      rw [readyForBlinds, moved]
      exact ⟨rfl, rfl, rfl⟩
    rw [← startNewHand_history two returned, before.1, before.2.1, before.2.2] at lines
    rw [blindItems_opened hand smallSeat bigSeat (Int.le_of_lt smallChips)
      (Int.le_of_lt bigChips)]
    refine ⟨_, lines, ?_⟩
    rw [List.map_cons, List.map_singleton]
    rw [(blindLine_items documented _ (Int.le_max_left 0 _)).1,
      (blindLine_items documented _ (Int.le_max_left 0 _)).2]
    rfl

theorem begins_append {first : String} {sign : Char}
    (begins : ∃ rest, first.toList = sign :: rest) (second : String) :
    ∃ rest, (first ++ second).toList = sign :: rest := by
  obtain ⟨rest, spelt⟩ := begins
  exact ⟨rest ++ second.toList, by rw [String.toList_append, spelt, List.cons_append]⟩

theorem distributeLayers_begin (handsById : List (Int × HandResult)) (showdownIds : List Int)
    (layers : List PotLayer) :
    ∀ line ∈ (distributeLayers handsById showdownIds layers).lines,
      ∃ rest, line.toList = 'S' :: rest := by
  have layered : ∀ layerIdx amount winnerIds bestHand,
      ∃ rest, (layerLine layerIdx amount winnerIds bestHand).toList = 'S' :: rest := by
    intro layerIdx amount winnerIds bestHand
    unfold layerLine
    apply begins_append
    apply begins_append
    apply begins_append
    apply begins_append
    apply begins_append
    apply begins_append
    exact ⟨_, rfl⟩
  have keeps : ∀ (layers : List PotLayer) (state : Distribution),
      (∀ line ∈ state.lines, ∃ rest, line.toList = 'S' :: rest) →
      ∀ line ∈ (layers.foldl (distributeLayer handsById showdownIds) state).lines,
        ∃ rest, line.toList = 'S' :: rest := by
    intro layers
    induction layers with
    | nil => exact fun _ begins => begins
    | cons layer rest ih =>
        intro state begins
        apply ih
        unfold distributeLayer
        dsimp only
        split
        · exact begins
        · intro line member
          rcases List.mem_append.mp member with early | late
          · exact begins line early
          · rw [List.mem_singleton.mp late]
            exact layered _ _ _ _
  exact keeps layers _ fun _ member => by cases member

/-- The lines of a showdown are in the game's own words. -/
theorem conductShowdown_shows {settled : PokerGame × ShowdownResult}
    (returned : game.conductShowdown = .ok settled) :
    Shows py game settled.1
      ((settled.1.actionHistory.drop game.actionHistory.length).map
        fun line => .generic line.toList) := by
  have worded : ∀ {after : PokerGame} {lines : List String},
      after.actionHistory = game.actionHistory ++ lines →
      (∀ line ∈ lines, ∃ rest, line.toList = 'S' :: rest) →
      Shows py game after ((after.actionHistory.drop game.actionHistory.length).map
        fun line => .generic line.toList) := by
    intro after lines written begins
    refine ⟨lines, written, ?_⟩
    rw [written, List.drop_left]
    apply List.map_congr_left
    intro line member
    obtain ⟨rest, spelt⟩ := begins line member
    rw [spelt]
    exact item_generic rest
  unfold conductShowdown at returned
  split at returned
  · cases returned
    refine worded rfl ?_
    intro line member
    rw [List.mem_singleton.mp member]
    exact ⟨_, rfl⟩
  · cases returned
    refine worded rfl ?_
    intro line member
    rw [List.mem_singleton.mp member]
    exact begins_append (begins_append (begins_append ⟨_, rfl⟩ _) _) _
  · split at returned
    · cases returned
    · rename_i hands _
      cases returned
      refine worded (List.append_assoc ..) ?_
      intro line member
      rcases List.mem_append.mp member with shown | layer
      · obtain ⟨hand, _, rfl⟩ := List.mem_map.mp shown
        exact begins_append (begins_append (begins_append (begins_append (begins_append ⟨_, rfl⟩ _) _) _)
          _) _
      · exact distributeLayers_begin _ _ _ line layer

/-! ### Any requests -/

theorem Counts.serve (solvent : Solvent game) (counts : Counts game) (request : Request) :
    Counts (game.serve request).2 := by
  refine ⟨(serve_solvent solvent request).chips, ?_⟩
  have same : ∀ {next : PokerGame},
      next.players.map Player.currentBet = game.players.map Player.currentBet →
      ∀ player ∈ next.players, 0 ≤ player.currentBet := by
    intro next kept player member
    have bet : player.currentBet ∈ next.players.map Player.currentBet := List.mem_map_of_mem member
    rw [kept] at bet
    obtain ⟨before, seated, equal⟩ := List.mem_map.mp bet
    rw [← equal]
    exact counts.bets before seated
  rcases serve_cases solvent request with unchanged | ⟨call, rfl, taken⟩
  · exact same (by rw [unchanged])
  · cases call with
    | startNewHand shuffle =>
        obtain ⟨opened, returned, invariant⟩ :=
          startNewHand_invariant shuffle solvent.few solvent.chips
        rw [callStep_newHand taken] at returned
        cases returned
        exact fun player member => (invariant.accounts.bounds player member).2.1
    | processPlayerAction playerId action amount =>
        show ∀ player ∈ (game.processPlayerAction playerId action amount).2.players, _
        rcases game.processPlayerAction_cases playerId action amount with rejected |
          ⟨seat, player, done, here, _, _, _, _, performed, written, accepted⟩
        · rw [rejected]
          exact counts.bets
        · obtain ⟨_, players⟩ := settle_frame (game.commitAction done playerId action amount)
          rw [accepted, players, written]
          intro other member
          rcases List.mem_or_eq_of_mem_set member with stays | rfl
          · exact counts.bets other stays
          · have seated := List.mem_of_getElem? here
            have bet : ∀ stake, 0 ≤ (player.bet stake).2.currentBet := fun stake =>
              (bet_counts (counts.chips player seated) (counts.bets player seated) stake).2
            rcases performAction_player performed with ⟨_, same, _⟩ | ⟨same, _⟩ |
              ⟨stake, same, _⟩ | ⟨same, _⟩
            · rw [same]
              exact counts.bets player seated
            · rw [same]
              exact counts.bets player seated
            · rw [same]
              exact bet stake
            · rw [same]
              exact bet player.chips
    | advanceToNextPlayer =>
        obtain ⟨seat, complete, frame⟩ := game.advance_frame
        apply same
        show game.advanceToNextPlayer.players.map _ = _
        rw [frame]
    | advanceToNextPhase =>
        obtain ⟨moved, returned⟩ := callStep_nextPhase taken
        rcases advanceToNextPhase_frame solvent.served returned with ⟨phase, written⟩ |
          ⟨phase, count, describe, seat, complete, written⟩
        · rw [written]
          exact counts.bets
        · rw [written]
          intro player member
          obtain ⟨before, _, rfl⟩ := List.mem_map.mp member
          exact Int.le_refl 0
    | conductShowdown =>
        obtain ⟨result, returned⟩ := callStep_showdown taken
        exact same (conductShowdown_map (fun _ _ => rfl) returned)

theorem serve_shows (documented : py.Documented) (solvent : Solvent game) (counts : Counts game)
    (request : Request) : Shows py game (game.serve request).2 (game.happened request) := by
  cases request with
  | getLlmGameState playerId =>
      unfold serve
      dsimp only
      split <;> exact shows_of_same rfl
  | call call =>
      cases call with
      | startNewHand shuffle =>
          obtain ⟨next, returned⟩ := game.startNewHand_returns shuffle solvent.few
          have after : (game.serve (.call (.startNewHand shuffle))).2 = next := by
            unfold serve
            dsimp only [perform]
            rw [returned]
            rfl
          unfold happened
          rw [after]
          exact startNewHand_shows documented solvent returned
      | processPlayerAction playerId action amount =>
          exact processPlayerAction_shows documented counts playerId action amount
      | advanceToNextPlayer =>
          apply shows_of_same
          show game.advanceToNextPlayer.actionHistory = game.actionHistory
          obtain ⟨seat, complete, frame⟩ := game.advance_frame
          rw [frame]
      | advanceToNextPhase =>
          obtain ⟨moved, next, returned, _⟩ := Continues.nextPhase solvent.served
          have after : (game.serve (.call .advanceToNextPhase)).2 = next := by
            unfold serve
            dsimp only [perform]
            rw [returned]
            rfl
          unfold happened
          rw [after]
          exact advanceToNextPhase_shows documented returned
      | conductShowdown =>
          unfold happened serve
          dsimp only [perform]
          cases returned : game.conductShowdown with
          | error raised =>
              dsimp only [Except.map, afterRaise]
              rw [List.drop_length]
              exact shows_of_same rfl
          | ok settled => exact conductShowdown_shows returned

/-- The lines of a whole run tell what happened in it. -/
theorem afterAll_shows (documented : py.Documented) (solvent : Solvent game)
    (counts : Counts game) (requests : List Request) :
    Shows py game (game.afterAll requests) (game.happenedAll requests) := by
  induction requests generalizing game with
  | nil => exact shows_of_same rfl
  | cons request rest ih =>
      exact (serve_shows documented solvent counts request).trans
        (ih (serve_solvent solvent request) (counts.serve solvent request))

end PokerGame

end Holdem
