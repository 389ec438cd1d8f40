import Holdem.DriverFacts

set_option autoImplicit false

namespace Holdem

/-- The decisions the consumers of the list build from an entry: any raise from the listed
minimum up to the whole stack, whatever amount comes with the other actions. -/
def AvailableAction.builds (entry : AvailableAction) (chips : Int) (decision : Decision) : Bool :=
  entry.admits decision &&
    match entry with
    | .raise _ => decide (decision.amount ≤ chips)
    | _ => true

namespace PokerGame

/-- When `process_player_action` accepts an action of the player to act. -/
def accepts (game : PokerGame) (player : Player) (action : Action) (amount : Int) : Bool :=
  match action with
  | .fold => true
  | .check => decide (game.currentBet ≤ player.currentBet)
  | .call => decide (game.currentBet ≤ player.currentBet ∨
      game.currentBet - player.currentBet ≤ player.chips)
  | .raise => decide (game.currentBet - player.currentBet + amount ≤ player.chips)
  | .allIn => decide (0 < player.chips)
  | .unknown _ => false

theorem performAction_isSome (game : PokerGame) (player : Player) (playerId : Int)
    (action : Action) (amount : Int) :
    (game.performAction player playerId action amount).isSome =
      game.accepts player action amount := by
  cases action <;> simp only [performAction, accepts]
  case fold => rfl
  case check =>
    split
    · simp; omega
    · simp; omega
  case call =>
    split
    · simp; omega
    · split
      · simp; omega
      · simp; omega
  case raise =>
    split
    · simp; omega
    · simp; omega
  case allIn =>
    split
    · simp; omega
    · split
      · simp; omega
      · simp; omega
  case unknown => rfl

section Listing

variable {table : Table} {game : PokerGame} {player : Player}

theorem process_accepts (found : game.getPlayer player.id = some player)
    (own : player.id = game.currentPlayerIndex) (active : player.status = .active)
    (action : Action) (amount : Int) :
    (game.processPlayerAction player.id action amount).1 = game.accepts player action amount := by
  rw [process_of_found found own active, ← performAction_isSome game player player.id]
  cases game.performAction player player.id action amount <;> rfl

theorem process_accepted (seated : Seated table game) (turn : game.Turn player)
    (action : Action) (amount : Int) :
    (game.processPlayerAction player.id action amount).1 = game.accepts player action amount :=
  process_accepts (seated.getPlayer turn.here) (seated.id_eq turn.here) turn.active action amount

/-- What `_get_available_actions` lists for an active player. -/
def Offers (game : PokerGame) (player : Player) (entry : AvailableAction) : Prop :=
  entry = .fold ∨ (entry = .check ∧ game.toCall player = 0) ∨
    (entry = .call (game.toCall player) ∧ 0 < game.toCall player ∧
      game.toCall player ≤ player.chips) ∨
    (entry = .raise game.minRaiseTotal ∧ game.mayRaise player player.id = true ∧
      game.minRaiseTotal ≤ player.chips ∧ game.toCall player < player.chips) ∨
    (entry = .allIn player.chips ∧ 0 < player.chips ∧
      (game.mayRaise player player.id = true ∨
        (0 < game.toCall player ∧ player.chips < game.toCall player)))

theorem mem_listed (found : game.getPlayer player.id = some player)
    (active : player.status = .active) {entry : AvailableAction} :
    entry ∈ game.getAvailableActions player.id ↔ game.Offers player entry := by
  have listed : ∀ {condition : Prop} [Decidable condition] {item : AvailableAction},
      entry ∈ (if condition then [item] else []) ↔ entry = item ∧ condition := by
    intro condition _ item
    split <;> simp_all
  unfold getAvailableActions
  rw [found]
  dsimp only
  rw [if_neg (by simpa using active)]
  simp only [List.mem_append, List.mem_singleton, listed]
  have last : entry ∈ (if player.chips > 0 then
      if game.mayRaise player player.id = true then [AvailableAction.allIn player.chips]
      else if game.toCall player > 0 ∧ player.chips < game.toCall player then
        [.allIn player.chips] else []
      else []) ↔ entry = .allIn player.chips ∧ 0 < player.chips ∧
        (game.mayRaise player player.id = true ∨
          (0 < game.toCall player ∧ player.chips < game.toCall player)) := by
    split
    · split
      · simp_all
      · rw [listed]
        simp_all
    · simp_all
  rw [last]
  simp only [Offers, or_assoc, gt_iff_lt, ge_iff_le]

theorem mem_available (seated : Seated table game) (turn : game.Turn player)
    {entry : AvailableAction} :
    entry ∈ game.getAvailableActions player.id ↔ game.Offers player entry :=
  mem_listed (seated.getPlayer turn.here) turn.active

/-- Every decision built from the list is accepted exactly when no raise is listed on top
of something to call. -/
theorem builds_accepted_iff (seated : Seated table game) (turn : game.Turn player)
    (bet : 0 ≤ player.currentBet) :
    (∀ entry ∈ game.getAvailableActions player.id, ∀ decision,
        entry.builds player.chips decision = true →
        game.accepts player decision.action decision.amount = true) ↔
      game.toCall player = 0 ∨ player.chips < game.currentBet + game.bigBlind ∨
        player.chips ≤ game.toCall player := by
  constructor
  · intro all
    by_contra raising
    simp only [not_or, Int.not_lt, Int.not_le] at raising
    obtain ⟨owing, affords, behind⟩ := raising
    have positive : 0 < game.currentBet - player.currentBet := by
      unfold toCall at owing
      omega
    have minimum : game.minRaiseTotal = game.currentBet + game.bigBlind := by
      unfold minRaiseTotal
      rw [if_neg (by omega)]
    have offered : AvailableAction.raise game.minRaiseTotal ∈
        game.getAvailableActions player.id := by
      refine (mem_available seated turn).mpr (Or.inr (Or.inr (Or.inr (Or.inl ⟨rfl, ?_, ?_, behind⟩))))
      · have owes : game.toCall player > 0 := by
          unfold toCall
          omega
        simp [mayRaise, owes]
      · omega
    -- shoving the whole stack through the raise entry adds the call on top of it
    have shove := all _ offered ⟨.raise, player.chips⟩
      (by simp [AvailableAction.builds, AvailableAction.admits, minimum, affords])
    simp only [accepts, decide_eq_true_eq] at shove
    omega
  · intro settled entry member decision built
    obtain ⟨action, amount⟩ := decision
    rcases (mem_available seated turn).mp member with rfl | ⟨rfl, owed⟩ | ⟨rfl, owed, affords⟩ |
      ⟨rfl, _, affords, behind⟩ | ⟨rfl, chips, _⟩ <;>
      simp only [AvailableAction.builds, AvailableAction.admits, Bool.and_true, beq_iff_eq,
        Bool.and_eq_true, decide_eq_true_eq] at built <;>
      simp only [accepts, built]
    · unfold toCall at owed
      exact decide_eq_true (by omega)
    · unfold toCall at affords
      exact decide_eq_true (by omega)
    · have none : game.toCall player = 0 := by
        rcases settled with done | short | behindNot
        · exact done
        · unfold minRaiseTotal at affords
          unfold toCall at behind ⊢
          split at affords <;> omega
        · omega
      unfold toCall at none
      exact decide_eq_true (by omega)
    · exact decide_eq_true chips

def listsDecision (game : PokerGame) (player : Player) (decision : Decision) : Bool :=
  game.isListed player.id
    (if decision.action = .call ∧ game.toCall player = 0 then ⟨.check, 0⟩ else decision)

/-- What is promised of an accepted decision: it was listed, and a raise has a positive
amount and lifts the current bet by the big blind or more. -/
def Lawful (game : PokerGame) (player : Player) (decision : Decision) : Prop :=
  game.listsDecision player decision = true ∧
    (decision.action = .raise → 0 < decision.amount ∧ game.currentBet + game.bigBlind ≤
      (game.processPlayerAction player.id decision.action decision.amount).2.currentBet)

/-- The decisions whose acceptance the list foresees. -/
def foresees (game : PokerGame) (player : Player) (decision : Decision) : Bool :=
  match decision.action with
  | .allIn => game.mayRaise player player.id
  | .raise =>
      decide (player.chips < game.currentBet - player.currentBet + decision.amount) ||
        (game.mayRaise player player.id && decide (game.minRaiseTotal ≤ decision.amount) &&
          decide (game.minRaiseTotal ≤ player.chips))
  | _ => true

theorem isListed_iff {decision : Decision} :
    game.isListed player.id decision = true ↔
      ∃ entry ∈ game.getAvailableActions player.id, entry.admits decision = true := by
  simp [isListed]

theorem raise_listed_iff (seated : Seated table game) (turn : game.Turn player) {amount : Int} :
    game.isListed player.id ⟨.raise, amount⟩ = true ↔
      game.minRaiseTotal ≤ amount ∧ game.mayRaise player player.id = true ∧
        game.minRaiseTotal ≤ player.chips ∧ game.toCall player < player.chips := by
  rw [isListed_iff]
  constructor
  · rintro ⟨entry, member, admitted⟩
    rcases (mem_available seated turn).mp member with rfl | ⟨rfl, _⟩ | ⟨rfl, _⟩ | ⟨rfl, rest⟩ |
      ⟨rfl, _⟩ <;> simp [AvailableAction.admits] at admitted
    exact ⟨admitted, rest⟩
  · rintro ⟨enough, rest⟩
    refine ⟨.raise game.minRaiseTotal, (mem_available seated turn).mpr ?_, ?_⟩
    · exact Or.inr (Or.inr (Or.inr (Or.inl ⟨rfl, rest⟩)))
    · simp [AvailableAction.admits, enough]

theorem listed_fair (seated : Seated table game) (turn : game.Turn player)
    (blind : 0 < game.bigBlind) (bet : 0 ≤ game.currentBet) {action : Action} {amount : Int}
    (listed : game.isListed player.id ⟨action, amount⟩ = true) (raises : action = .raise) :
    0 < amount := by
  subst raises
  obtain ⟨enough, _⟩ := (raise_listed_iff seated turn).mp listed
  unfold minRaiseTotal at enough
  split at enough <;> omega

theorem allIn_listed_iff (seated : Seated table game) (turn : game.Turn player) {amount : Int}
    (funded : 0 < player.chips) :
    game.isListed player.id ⟨.allIn, amount⟩ = true ↔ game.mayRaise player player.id = true := by
  rw [isListed_iff]
  constructor
  · rintro ⟨entry, member, admitted⟩
    rcases (mem_available seated turn).mp member with rfl | ⟨rfl, _⟩ | ⟨rfl, _⟩ | ⟨rfl, _⟩ |
      ⟨rfl, _, may | ⟨owes, _⟩⟩ <;> simp [AvailableAction.admits] at admitted
    · exact may
    · simp [mayRaise, owes]
  · intro may
    refine ⟨.allIn player.chips, (mem_available seated turn).mpr ?_, rfl⟩
    exact Or.inr (Or.inr (Or.inr (Or.inr ⟨rfl, funded, Or.inl may⟩)))

/-- An accepted raise sets the current bet to the raiser's own bet. -/
theorem raise_currentBet (seated : Seated table game) (turn : game.Turn player)
    (funded : 0 < player.chips) {amount : Int}
    (affords : game.currentBet - player.currentBet + amount ≤ player.chips) :
    (game.processPlayerAction player.id .raise amount).2.currentBet =
      max player.currentBet (game.currentBet + amount) := by
  rw [process_of_turn seated turn]
  simp only [performAction]
  rw [if_neg (by omega)]
  dsimp only
  obtain ⟨seat, complete, frame⟩ := game.afterAction_frame
    ⟨(player.bet (game.currentBet - player.currentBet + amount)).2,
      (player.bet (game.currentBet - player.currentBet + amount)).1,
      (player.bet (game.currentBet - player.currentBet + amount)).2.currentBet,
      some player.id.toNat, true, _⟩ player.id .raise amount
  rw [frame]
  change (player.bet (game.currentBet - player.currentBet + amount)).2.currentBet = _
  obtain ⟨paid, _, bet, _⟩ :=
    player.bet_spec (game.currentBet - player.currentBet + amount) (Int.le_of_lt funded)
  rw [bet, paid]
  omega

/-- Acceptance of a decision keeps the promise exactly for the decisions foreseen. -/
theorem lawful_iff_foreseen (seated : Seated table game) (turn : game.Turn player)
    (funded : 0 < player.chips) (blind : 0 < game.bigBlind) (bet : 0 ≤ game.currentBet)
    (decision : Decision) :
    (game.accepts player decision.action decision.amount = true →
        game.Lawful player decision) ↔ game.foresees player decision = true := by
  obtain ⟨action, amount⟩ := decision
  have quiet : ∀ {listed : Decision} (entry : AvailableAction), entry.admits listed = true →
      entry ∈ game.getAvailableActions player.id → game.isListed player.id listed = true :=
    fun _ admitted member => isListed_iff.mpr ⟨_, member, admitted⟩
  cases action with
  | fold =>
      refine iff_of_true (fun _ => ⟨?_, by simp⟩) rfl
      exact quiet .fold rfl ((mem_available seated turn).mpr (Or.inl rfl))
  | check =>
      refine iff_of_true (fun accepted => ⟨?_, by simp⟩) rfl
      have nothing : game.toCall player = 0 := by
        simp only [accepts, decide_eq_true_eq] at accepted
        unfold toCall
        omega
      exact quiet .check rfl
        ((mem_available seated turn).mpr (Or.inr (Or.inl ⟨rfl, nothing⟩)))
  | call =>
      refine iff_of_true (fun accepted => ⟨?_, by simp⟩) rfl
      simp only [accepts, decide_eq_true_eq] at accepted
      unfold listsDecision
      by_cases nothing : game.toCall player = 0
      · rw [if_pos ⟨rfl, nothing⟩]
        exact quiet .check rfl
          ((mem_available seated turn).mpr (Or.inr (Or.inl ⟨rfl, nothing⟩)))
      · rw [if_neg (by simp [nothing])]
        refine quiet (.call (game.toCall player)) rfl
          ((mem_available seated turn).mpr (Or.inr (Or.inr (Or.inl ⟨rfl, ?_, ?_⟩))))
        · unfold toCall at nothing ⊢
          omega
        · unfold toCall at nothing ⊢
          omega
  | raise =>
      have minimum : game.bigBlind ≤ game.minRaiseTotal := by
        unfold minRaiseTotal
        split <;> omega
      simp only [accepts, foresees, Lawful, listsDecision, reduceCtorEq, false_and, ↓reduceIte,
        raise_listed_iff seated turn, Bool.or_eq_true, Bool.and_eq_true, decide_eq_true_eq,
        forall_const]
      constructor
      · intro promise
        by_cases affords : game.currentBet - player.currentBet + amount ≤ player.chips
        · obtain ⟨⟨enough, may, stack, _⟩, _⟩ := promise affords
          exact Or.inr ⟨⟨may, enough⟩, stack⟩
        · exact Or.inl (by omega)
      · intro foreseen affords
        obtain ⟨⟨may, enough⟩, stack⟩ := foreseen.resolve_left (by omega)
        rw [raise_currentBet seated turn funded affords]
        refine ⟨⟨enough, may, stack, ?_⟩, by omega, by omega⟩
        unfold toCall
        omega
  | allIn =>
      simp only [accepts, foresees, Lawful, listsDecision, reduceCtorEq, false_and, ↓reduceIte,
        allIn_listed_iff seated turn funded, decide_eq_true_eq, funded, forall_const, and_true,
        false_implies]
  | unknown text =>
      refine iff_of_true (fun accepted => ?_) rfl
      cases accepted

/-- A listed decision that ends in a fold: a fold, or a raise beyond the stack. -/
def foldsOn (game : PokerGame) (player : Player) (decision : Decision) : Bool :=
  decision.action == .fold ||
    (decision.action == .raise &&
      decide (player.chips < game.currentBet - player.currentBet + decision.amount))

/-- A listed decision that is rejected is a raise beyond the stack. -/
theorem foldsOn_of_rejected (seated : Seated table game) (turn : game.Turn player)
    (funded : 0 < player.chips) {decision : Decision}
    (listed : game.isListed player.id decision = true)
    (rejected : game.performAction player player.id decision.action decision.amount = none) :
    game.foldsOn player decision = true := by
  have refused := performAction_isSome game player player.id decision.action decision.amount
  rw [rejected] at refused
  obtain ⟨action, amount⟩ := decision
  obtain ⟨entry, member, admitted⟩ := isListed_iff.mp listed
  rcases (mem_available seated turn).mp member with rfl | ⟨rfl, owed⟩ | ⟨rfl, owed, affords⟩ |
    ⟨rfl, _⟩ | ⟨rfl, _⟩ <;>
    simp only [AvailableAction.admits, beq_iff_eq, Bool.and_eq_true] at admitted
  · simp [foldsOn, admitted]
  · simp only [admitted, Option.isSome_none, accepts, Bool.false_eq, decide_eq_false_iff_not]
      at refused
    unfold toCall at owed
    omega
  · simp only [admitted, Option.isSome_none, accepts, Bool.false_eq, decide_eq_false_iff_not]
      at refused
    unfold toCall at affords
    omega
  · simp only [admitted, Option.isSome_none, accepts, Bool.false_eq, decide_eq_false_iff_not]
      at refused
    simp only [foldsOn, admitted, BEq.rfl, Bool.true_and, Bool.or_eq_true, decide_eq_true_eq]
    exact Or.inr (by omega)
  · simp only [admitted, Option.isSome_none, accepts, Bool.false_eq, decide_eq_false_iff_not]
      at refused
    exact absurd funded refused

end Listing

end PokerGame

/-- In every state of a driver run, the decisions built from the list of the player to act
are all accepted exactly when the list has no raise on top of a call. -/
theorem offered_decisions_accepted_iff (table : Table) (events : List DriverEvent)
    (state : DriverState) (player : Player)
    (played : Runs.run driverStep table.start events = some state)
    (stage : state.stage = .inHand) (turn : state.game.Turn player) :
    (∀ entry ∈ state.game.getAvailableActions player.id, ∀ decision,
        entry.builds player.chips decision = true →
        (state.game.processPlayerAction player.id decision.action decision.amount).1 = true) ↔
      state.game.toCall player = 0 ∨
        player.chips < state.game.currentBet + state.game.bigBlind ∨
        player.chips ≤ state.game.toCall player := by
  have reached := table.reached played
  have bet := ((reached.inPlay stage).bounds player (List.mem_of_getElem? turn.here)).2.1
  simp only [PokerGame.process_accepted reached.seated turn]
  exact PokerGame.builds_accepted_iff reached.seated turn bet

def headsUp : Table where
  smallBlind := 10
  bigBlind := 20
  chips := [100, 100]
  button := 0
  seats_ge := by decide
  seats_le := by decide
  chips_pos := by decide
  button_lt := by decide

/-- The small blind of the first heads-up hand is offered a raise from 40 up and may not
put its 90 chips into it. -/
theorem offered_shove_rejected :
    ∃ state player, Runs.run driverStep headsUp.start [.newHand .unshuffled] = some state ∧
      state.stage = .inHand ∧ state.game.bettingRoundComplete = false ∧ state.game.Turn player ∧
      AvailableAction.raise 40 ∈ state.game.getAvailableActions player.id ∧
      (AvailableAction.raise 40).builds player.chips ⟨.raise, 90⟩ = true ∧
      (state.game.processPlayerAction player.id .raise 90).1 = false :=
  ⟨_, _, rfl, rfl, rfl, ⟨rfl, rfl⟩, by decide, by decide, by decide⟩

/-- After a call the big blind owes nothing, and everything it is offered is accepted. -/
theorem offered_decisions_accepted_big_blind :
    ∃ state player, Runs.run driverStep headsUp.start
        [.newHand .unshuffled, .decide ⟨.call, 0⟩] = some state ∧
      state.stage = .inHand ∧ state.game.Turn player ∧
      ∀ entry ∈ state.game.getAvailableActions player.id, ∀ decision,
        entry.builds player.chips decision = true →
        (state.game.processPlayerAction player.id decision.action decision.amount).1 = true :=
  ⟨_, _, rfl, rfl, ⟨rfl, rfl⟩,
    (offered_decisions_accepted_iff headsUp [.newHand .unshuffled, .decide ⟨.call, 0⟩] _ _
      rfl rfl ⟨rfl, rfl⟩).mpr (Or.inl rfl)⟩

/-- In every state of a driver run, acceptance of a decision means that it was listed, and
that a raise is a real one, exactly for the decisions the list foresees. -/
theorem accepted_decision_lawful_iff (table : Table) (blind : 0 < table.bigBlind)
    (events : List DriverEvent) (state : DriverState) (player : Player) (decision : Decision)
    (played : Runs.run driverStep table.start events = some state)
    (stage : state.stage = .inHand) (turn : state.game.Turn player) :
    ((state.game.processPlayerAction player.id decision.action decision.amount).1 = true →
        state.game.Lawful player decision) ↔ state.game.foresees player decision = true := by
  have reached := table.reached played
  have inPlay := reached.inPlay stage
  have funded := inPlay.funded player (List.mem_of_getElem? turn.here) turn.active
  rw [PokerGame.process_accepted reached.seated turn]
  exact PokerGame.lawful_iff_foreseen reached.seated turn funded
    (by rw [reached.seated.blinds.2]; exact blind) inPlay.bet decision

/-- A raise by a negative amount is accepted and halves the current bet. -/
theorem negative_raise_accepted :
    ∃ state player, Runs.run driverStep headsUp.start [.newHand .unshuffled] = some state ∧
      state.stage = .inHand ∧ state.game.bettingRoundComplete = false ∧ state.game.Turn player ∧
      (state.game.processPlayerAction player.id .raise (-10)).1 = true ∧
      state.game.listsDecision player ⟨.raise, -10⟩ = false ∧ state.game.currentBet = 20 ∧
      (state.game.processPlayerAction player.id .raise (-10)).2.currentBet = 10 :=
  ⟨_, _, rfl, rfl, rfl, ⟨rfl, rfl⟩, by decide, by decide, by decide, by decide⟩

/-- A raise to the listed minimum is foreseen, accepted and lawful. -/
theorem accepted_decision_lawful_minimum :
    ∃ state player, Runs.run driverStep headsUp.start [.newHand .unshuffled] = some state ∧
      state.game.Turn player ∧
      (state.game.processPlayerAction player.id .raise 40).1 = true ∧
      state.game.Lawful player ⟨.raise, 40⟩ :=
  ⟨_, _, rfl, ⟨rfl, rfl⟩, rfl,
    (accepted_decision_lawful_iff headsUp (by decide) [.newHand .unshuffled] _ _ ⟨.raise, 40⟩
      rfl rfl ⟨rfl, rfl⟩).mpr rfl rfl⟩

namespace PokerGame

/-- A raise that is accepted makes the player's bet the current bet: the amount comes on top
of the bet to match. -/
theorem raise_player_bet {table : Table} {game : PokerGame} {player : Player}
    (seated : Seated table game) (turn : game.Turn player) {amount : Int}
    (accepted : (game.processPlayerAction player.id .raise amount).1 = true) :
    ∃ after, (game.processPlayerAction player.id .raise amount).2.players[
        game.currentPlayerIndex]? = some after ∧
      after.currentBet = (game.processPlayerAction player.id .raise amount).2.currentBet := by
  rw [process_of_turn seated turn] at accepted ⊢
  cases performed : game.performAction player player.id .raise amount with
  | none =>
      rw [performed] at accepted
      cases accepted
  | some done =>
      dsimp only
      obtain ⟨seat, complete, frame⟩ := game.afterAction_frame done player.id .raise amount
      rw [frame]
      dsimp only
      rw [commitAction_players seated turn performed,
        List.getElem?_set_self (List.getElem?_eq_some_iff.mp turn.here).1]
      refine ⟨done.player, rfl, ?_⟩
      simp only [performAction] at performed
      split at performed
      · cases performed
      · cases performed
        rfl

end PokerGame

/-- A raise that is accepted, whether its amount was listed or not, ends at that amount exactly
when it opens the betting and the player has not already bet more. -/
theorem raise_amount_is_total_iff (table : Table) (events : List DriverEvent)
    (state : DriverState) (player : Player) (amount : Int)
    (played : Runs.run driverStep table.start events = some state)
    (stage : state.stage = .inHand) (turn : state.game.Turn player)
    (accepted : (state.game.processPlayerAction player.id .raise amount).1 = true) :
    ((state.game.processPlayerAction player.id .raise amount).2.currentBet = amount ∧
        ∃ after, (state.game.processPlayerAction player.id .raise amount).2.players[
            state.game.currentPlayerIndex]? = some after ∧ after.currentBet = amount) ↔
      state.game.currentBet = 0 ∧ player.currentBet ≤ amount := by
  have reached := table.reached played
  have inPlay := reached.inPlay stage
  have member := List.mem_of_getElem? turn.here
  have funded := inPlay.funded player member turn.active
  have bet := inPlay.bet
  obtain ⟨after, here, same⟩ := PokerGame.raise_player_bet reached.seated turn accepted
  rw [PokerGame.process_accepted reached.seated turn] at accepted
  have affords : state.game.currentBet - player.currentBet + amount ≤ player.chips := by
    simpa [PokerGame.accepts] using accepted
  have raised := PokerGame.raise_currentBet reached.seated turn funded affords
  constructor
  · rintro ⟨level, _⟩
    omega
  · rintro ⟨opening, low⟩
    have level : (state.game.processPlayerAction player.id .raise amount).2.currentBet =
        amount := by
      omega
    exact ⟨level, after, here, same.trans level⟩

/-- The button is offered a raise to 40 at least; raising by 40 makes the bet 60. -/
theorem listed_raise_on_top :
    ∃ state player, Runs.run driverStep headsUp.start [.newHand .unshuffled] = some state ∧
      state.stage = .inHand ∧ state.game.Turn player ∧
      AvailableAction.raise 40 ∈ state.game.getAvailableActions player.id ∧
      (state.game.processPlayerAction player.id .raise 40).1 = true ∧
      (state.game.processPlayerAction player.id .raise 40).2.currentBet = 60 :=
  ⟨_, _, rfl, rfl, ⟨rfl, rfl⟩, by decide, by decide, by decide⟩

/-- Both see the flop and the big blind opens for 40. -/
theorem raise_amount_is_total_flop :
    ∃ state player, Runs.run driverStep headsUp.start
        [.newHand .unshuffled, .decide ⟨.call, 0⟩, .decide ⟨.check, 0⟩, .nextPhase] =
          some state ∧
      state.game.Turn player ∧
      AvailableAction.raise 20 ∈ state.game.getAvailableActions player.id ∧
      (state.game.processPlayerAction player.id .raise 40).2.currentBet = 40 := by
  have reached : ∃ state player, Runs.run driverStep headsUp.start
        [.newHand .unshuffled, .decide ⟨.call, 0⟩, .decide ⟨.check, 0⟩, .nextPhase] =
          some state ∧
      state.stage = .inHand ∧ state.game.Turn player ∧
      AvailableAction.raise 20 ∈ state.game.getAvailableActions player.id ∧
      (state.game.processPlayerAction player.id .raise 40).1 = true ∧
      state.game.currentBet = 0 ∧ player.currentBet ≤ 40 :=
    ⟨_, _, rfl, rfl, ⟨rfl, rfl⟩, by decide, by decide, by decide, by decide⟩
  obtain ⟨state, player, played, stage, turn, listed, accepted, opening⟩ := reached
  have total := raise_amount_is_total_iff headsUp _ state player 40 played stage turn accepted
  exact ⟨state, player, played, turn, listed, (total.mpr opening).1⟩

end Holdem
