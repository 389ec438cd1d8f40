import Holdem.CardFlow
import Holdem.LatestAction

set_option autoImplicit false

/- What a player's status says about his chips while a hand is played, whatever requests
come in whatever order. `bet` puts a player all-in as a side effect, the all-in branch does
so again, `fold` and the reset of a hand write the status too; the blinds of short stacks
and raises of negative amounts all go through `bet`. -/
namespace Holdem

namespace Player

/-- Chips, bets and cards are what the status says. -/
structure StatusFits (player : Player) : Prop where
  solvent : 0 ≤ player.chips
  staked : 0 ≤ player.totalBetThisHand
  active : player.status = .active → 0 < player.chips
  allIn : player.status = .allIn → player.chips = 0 ∧ 0 < player.totalBetThisHand
  busted : player.status = .busted →
    player.chips = 0 ∧ player.totalBetThisHand = 0 ∧ player.holeCards = []

/-- What a request within a hand may make of a player. -/
structure PlaysOn (before after : Player) : Prop where
  id : after.id = before.id
  fits : before.StatusFits → after.StatusFits
  out : before.status ≠ .active → after.status = before.status ∧ after.chips = before.chips

theorem PlaysOn.refl (player : Player) : player.PlaysOn player :=
  ⟨rfl, fun fits => fits, fun _ => ⟨rfl, rfl⟩⟩

theorem PlaysOn.trans {first second third : Player} (here : first.PlaysOn second)
    (later : second.PlaysOn third) : first.PlaysOn third := by
  refine ⟨later.id.trans here.id, fun fits => later.fits (here.fits fits), ?_⟩
  intro out
  obtain ⟨status, chips⟩ := here.out out
  obtain ⟨statusToo, chipsToo⟩ := later.out (by rwa [status])
  exact ⟨statusToo.trans status, chipsToo.trans chips⟩

theorem playsOn_newRound (player : Player) : player.PlaysOn player.resetForNewBettingRound :=
  ⟨rfl, fun fits => ⟨fits.solvent, fits.staked, fits.active, fits.allIn, fits.busted⟩,
    fun _ => ⟨rfl, rfl⟩⟩

theorem resetForNewHand_fits {player : Player} (solvent : 0 ≤ player.chips) :
    player.resetForNewHand.StatusFits := by
  unfold resetForNewHand
  by_cases funded : player.chips > 0
  · rw [if_pos funded]
    exact ⟨solvent, Int.le_refl 0, fun _ => funded, nofun, nofun⟩
  · rw [if_neg funded]
    have broke : player.chips = 0 := by omega
    exact ⟨solvent, Int.le_refl 0, nofun, nofun, fun _ => ⟨broke, rfl, rfl⟩⟩

theorem StatusFits.bet {player : Player} (fits : player.StatusFits)
    (active : player.status = .active) (amount : Int) : (player.bet amount).2.StatusFits := by
  have funded := fits.active active
  obtain ⟨paid, chips, _, total⟩ := player.bet_spec amount fits.solvent
  have status := player.bet_status amount funded
  have staked := fits.staked
  by_cases emptied : (player.bet amount).2.chips = 0
  · rw [if_pos emptied] at status
    refine ⟨by omega, by omega, ?_, fun _ => ⟨emptied, by omega⟩, ?_⟩
    · rw [status]
      exact nofun
    · rw [status]
      exact nofun
  · rw [if_neg emptied, active] at status
    refine ⟨by omega, by omega, fun _ => by omega, ?_, ?_⟩
    · rw [status]
      exact nofun
    · rw [status]
      exact nofun

end Player

namespace PokerGame

variable {game : PokerGame}

/-! ### Opening a hand -/

/-- Only seats with chips post a blind, so every seat opens with a status that fits. -/
theorem openSeat_fits {button small big seat : Nat} {player : Player}
    (solvent : 0 ≤ player.chips) (posts : seat = small ∨ seat = big → 0 < player.chips) :
    (game.openSeat button small big seat player).StatusFits := by
  have fresh := Player.resetForNewHand_fits solvent
  have marked : ∀ isDealer isSmallBlind isBigBlind : Bool,
      Player.StatusFits { player.resetForNewHand with
        isDealer := isDealer, isSmallBlind := isSmallBlind, isBigBlind := isBigBlind } :=
    fun _ _ _ => ⟨fresh.solvent, fresh.staked, fresh.active, fresh.allIn, fresh.busted⟩
  have funded : 0 < player.chips → player.resetForNewHand.status = .active := by
    intro chips
    exact if_pos chips
  unfold openSeat
  dsimp only
  by_cases atBig : seat = big
  · rw [if_pos atBig]
    apply Player.StatusFits.bet
    · exact marked _ _ _
    · exact funded (posts (Or.inr atBig))
  · rw [if_neg atBig]
    by_cases atSmall : seat = small
    · rw [if_pos atSmall]
      apply Player.StatusFits.bet
      · exact marked _ _ _
      · exact funded (posts (Or.inl atSmall))
    · rw [if_neg atSmall]
      exact marked _ _ _

theorem startNewHand_fits {next : PokerGame} {shuffle : Shuffle} (solvent : Solvent game)
    (returned : game.startNewHand shuffle = .ok next) :
    ∀ player ∈ next.players, player.StatusFits := by
  rcases game.startNewHand_spec shuffle solvent.few with ⟨_, finished⟩ |
    ⟨button, opened, started, hand⟩
  · rw [returned] at finished
    cases finished
    intro player member
    obtain ⟨before, seated, rfl⟩ := List.mem_map.mp member
    exact Player.resetForNewHand_fits (solvent.chips before seated)
  · rw [returned] at started
    cases started
    have dealt := (startNewHand_cards returned).2.2 (by rw [hand.phase]; decide)
    intro player member
    obtain ⟨seat, here⟩ := List.mem_iff_getElem?.mp member
    obtain ⟨before, cards, there, rfl⟩ := hand.player_of_seat here
    have alive : ∀ other, game.HasChips other → seat = other → 0 < before.chips := by
      rintro other ⟨holder, held, chips⟩ rfl
      rw [there] at held
      cases held
      exact chips
    have fits : (game.openSeat button _ _ seat before).StatusFits :=
      openSeat_fits (solvent.chips before (List.mem_of_getElem? there))
        (fun posting => posting.elim (alive _ hand.smallAlive) (alive _ hand.bigAlive))
    refine ⟨fits.solvent, fits.staked, fits.active, fits.allIn, ?_⟩
    intro busted
    obtain ⟨chips, total, _⟩ := fits.busted busted
    have count := dealt _ member
    rw [if_pos busted] at count
    exact ⟨chips, total, List.length_eq_zero_iff.mp count⟩

/-! ### One request within a hand -/

theorem performAction_emptied {player : Player} {playerId amount : Int} {action : Action}
    {done : Performed} (fits : player.StatusFits) (active : player.status = .active)
    (performed : game.performAction player playerId action amount = some done)
    (allIn : done.player.status = .allIn) : done.player.chips = 0 := by
  rcases performAction_player performed with ⟨_, same, _⟩ | ⟨same, _⟩ | ⟨stake, same, _⟩ | ⟨same, _⟩
  · rw [same] at allIn
    cases allIn
  · rw [same, active] at allIn
    cases allIn
  · rw [same] at allIn ⊢
    exact ((fits.bet active stake).allIn allIn).1
  · have solvent := fits.solvent
    obtain ⟨paid, chips, _, _⟩ := player.bet_spec player.chips solvent
    rw [same]
    dsimp only
    omega

theorem performAction_playsOn {player : Player} {playerId amount : Int} {action : Action}
    {done : Performed} (active : player.status = .active)
    (performed : game.performAction player playerId action amount = some done) :
    player.PlaysOn done.player := by
  refine ⟨(performAction_keeps performed).1, ?_, fun out => absurd active out⟩
  intro fits
  have funded := fits.active active
  have staked := fits.staked
  have pays := performAction_pays fits.solvent performed
  have paid := pays.paid
  have chips := pays.chips
  have total := pays.total
  refine ⟨pays.solvent, by omega, performAction_funded funded performed, ?_, ?_⟩
  · intro allIn
    have empty := performAction_emptied fits active performed allIn
    exact ⟨empty, by omega⟩
  · intro busted
    exact absurd busted (performAction_notBusted active performed)

/-- The request does not end the hand: `start_new_hand` does, and so does a
`conduct_showdown` that returns. -/
def staysInHand (game : PokerGame) : Request → Bool
  | .call (.startNewHand _) => false
  | .call .conductShowdown =>
      match game.conductShowdown with
      | .ok _ => false
      | .error _ => true
  | _ => true

theorem playsOn_same (players : List Player) : List.Forall₂ Player.PlaysOn players players :=
  List.forall₂_same.mpr fun player _ => Player.PlaysOn.refl player

theorem playsOn_set {players : List Player} {seat : Nat} {before after : Player}
    (here : players[seat]? = some before) (playsOn : before.PlaysOn after) :
    List.Forall₂ Player.PlaysOn players (players.set seat after) := by
  induction players generalizing seat with
  | nil => cases here
  | cons player rest ih =>
      cases seat with
      | zero =>
          cases here
          exact List.Forall₂.cons playsOn (playsOn_same rest)
      | succ seat => exact List.Forall₂.cons (Player.PlaysOn.refl player) (ih here)

theorem playsOn_trans {first second third : List Player}
    (here : List.Forall₂ Player.PlaysOn first second)
    (later : List.Forall₂ Player.PlaysOn second third) :
    List.Forall₂ Player.PlaysOn first third := by
  induction here generalizing third with
  | nil => exact later
  | cons head _ ih =>
      cases later with
      | cons next rest => exact List.Forall₂.cons (head.trans next) (ih rest)

/-- One request within a hand, also one that raises. -/
theorem serve_playsOn (solvent : Solvent game) {request : Request}
    (stays : game.staysInHand request = true) :
    List.Forall₂ Player.PlaysOn game.players (game.serve request).2.players := by
  cases request with
  | getLlmGameState playerId =>
      unfold serve
      dsimp only
      split <;> exact playsOn_same _
  | call call =>
      cases call with
      | startNewHand shuffle => cases stays
      | processPlayerAction playerId action amount =>
          show List.Forall₂ _ _ (game.processPlayerAction playerId action amount).2.players
          rcases game.processPlayerAction_cases playerId action amount with rejected |
            ⟨seat, player, done, here, _, _, active, _, performed, written, accepted⟩
          · rw [rejected]
            exact playsOn_same _
          · obtain ⟨turn, complete, frame⟩ :=
              advance_check_frame (game.commitAction done playerId action amount)
            rw [accepted, frame]
            dsimp only
            rw [written]
            exact playsOn_set here (performAction_playsOn active performed)
      | advanceToNextPlayer =>
          show List.Forall₂ _ _ game.advanceToNextPlayer.players
          obtain ⟨seat, complete, frame⟩ := game.advance_frame
          rw [frame]
          exact playsOn_same _
      | advanceToNextPhase =>
          obtain ⟨moved, next, returned, _⟩ := Continues.nextPhase solvent.served
          have after : (game.serve (.call .advanceToNextPhase)).2 = next := by
            unfold serve
            dsimp only [perform]
            rw [returned]
            rfl
          rw [after]
          rcases advanceToNextPhase_frame solvent.served returned with ⟨phase, rfl⟩ |
            ⟨phase, count, describe, seat, complete, rfl⟩
          · exact playsOn_same _
          · apply List.forall₂_map_right_iff.mpr
            exact List.forall₂_same.mpr fun player _ => player.playsOn_newRound
      | conductShowdown =>
          unfold staysInHand at stays
          unfold serve
          dsimp only [perform] at stays ⊢
          cases returned : game.conductShowdown with
          | ok settled =>
              rw [returned] at stays
              cases stays
          | error raised => exact playsOn_same _

/-! ### Runs -/

/-- A call that raises leaves a solvent table as it was. -/
theorem serve_cases (solvent : Solvent game) (request : Request) :
    (game.serve request).2 = game ∨
      ∃ call, request = .call call ∧ game.callStep call = some (game.serve request).2 := by
  cases request with
  | getLlmGameState playerId =>
      left
      unfold serve
      dsimp only
      split <;> rfl
  | call call =>
      unfold serve callStep
      dsimp only
      cases outcome : game.perform call with
      | ok done => exact Or.inr ⟨call, rfl, by rw [outcome]⟩
      | error raised =>
          left
          cases call with
          | startNewHand shuffle =>
              obtain ⟨next, returned⟩ := game.startNewHand_returns shuffle solvent.few
              rw [perform, returned] at outcome
              cases outcome
          | processPlayerAction playerId action amount => cases outcome
          | advanceToNextPlayer => cases outcome
          | advanceToNextPhase =>
              obtain ⟨moved, next, returned, _⟩ := Continues.nextPhase solvent.served
              rw [perform, returned] at outcome
              cases outcome
          | conductShowdown => rfl

theorem serve_solvent (solvent : Solvent game) (request : Request) :
    Solvent (game.serve request).2 := by
  rcases serve_cases solvent request with same | ⟨call, _, taken⟩
  · rw [same]
    exact solvent
  · exact solvent.call taken

theorem serve_ids (solvent : Solvent game) (request : Request) :
    (game.serve request).2.players.map Player.id = game.players.map Player.id := by
  by_cases stays : game.staysInHand request = true
  · exact map_of_forall₂ (serve_playsOn solvent stays) fun _ _ playsOn => playsOn.id
  · rcases serve_cases solvent request with same | ⟨call, rfl, taken⟩
    · rw [same]
    · cases call with
      | startNewHand shuffle =>
          obtain ⟨opened, returned, invariant⟩ :=
            startNewHand_invariant shuffle solvent.few solvent.chips
          rw [callStep_newHand taken] at returned
          cases returned
          exact invariant.accounts.ids
      | conductShowdown =>
          obtain ⟨result, returned⟩ := callStep_showdown taken
          exact (conductShowdown_seats returned).1
      | processPlayerAction playerId action amount => exact absurd rfl stays
      | advanceToNextPlayer => exact absurd rfl stays
      | advanceToNextPhase => exact absurd rfl stays

def serveStep (game : PokerGame) (request : Request) : Option PokerGame :=
  some (game.serve request).2

theorem run_serveStep (game : PokerGame) (requests : List Request) :
    Runs.run serveStep game requests = some (game.afterAll requests) := by
  induction requests generalizing game with
  | nil => rfl
  | cons request rest ih => exact ih (game.serve request).2

theorem afterAll_solvent (solvent : Solvent game) (requests : List Request) :
    Solvent (game.afterAll requests) ∧
      (game.afterAll requests).players.map Player.id = game.players.map Player.id := by
  apply Runs.run_invariant_always
    (fun state => Solvent state ∧ state.players.map Player.id = game.players.map Player.id)
    ?_ ⟨solvent, rfl⟩ (run_serveStep game requests)
  rintro state request next ⟨still, ids⟩ taken
  cases taken
  exact ⟨serve_solvent still request, (serve_ids still request).trans ids⟩

theorem afterAll_playsOn (solvent : Solvent game) {requests : List Request}
    (inHand : Runs.meets serveStep staysInHand game requests = true) :
    List.Forall₂ Player.PlaysOn game.players (game.afterAll requests).players := by
  have both : Solvent (game.afterAll requests) ∧
      List.Forall₂ Player.PlaysOn game.players (game.afterAll requests).players := by
    apply Runs.run_invariant
      (fun state => Solvent state ∧ List.Forall₂ Player.PlaysOn game.players state.players)
      ?_ ⟨solvent, playsOn_same _⟩ inHand (run_serveStep game requests)
    rintro state request next ⟨still, played⟩ stays taken
    cases taken
    exact ⟨serve_solvent still request, playsOn_trans played (serve_playsOn still stays)⟩
  exact both.2

theorem fits_of_playsOn {before after : List Player}
    (playsOn : List.Forall₂ Player.PlaysOn before after)
    (fits : ∀ player ∈ before, player.StatusFits) : ∀ player ∈ after, player.StatusFits := by
  induction playsOn with
  | nil => exact nofun
  | cons head _ ih =>
      obtain ⟨here, later⟩ := List.forall_mem_cons.mp fits
      exact List.forall_mem_cons.mpr ⟨head.fits here, ih later⟩

/-! ### What the player to act can do -/

/-- Besides folding, a player with chips is offered a check, a call or an all-in, and it is
accepted. -/
theorem offered_accepted {player : Player} (found : game.getPlayer player.id = some player)
    (own : player.id = game.currentPlayerIndex) (active : player.status = .active)
    (funded : 0 < player.chips) :
    ∃ entry ∈ game.getAvailableActions player.id,
      (entry = .check ∨ entry = .call (game.toCall player) ∨ entry = .allIn player.chips) ∧
      ∀ decision, entry.admits decision = true →
        (game.processPlayerAction player.id decision.action decision.amount).1 = true := by
  have listed := fun entry => (@mem_listed game player found active entry).mpr
  have owed : game.toCall player = max 0 (game.currentBet - player.currentBet) := rfl
  by_cases matched : game.toCall player = 0
  · refine ⟨.check, listed _ (Or.inr (Or.inl ⟨rfl, matched⟩)), Or.inl rfl, ?_⟩
    rintro ⟨action, amount⟩ chosen
    have check : action = .check := by simpa [AvailableAction.admits] using chosen
    rw [process_accepts found own active, check]
    exact decide_eq_true (by omega)
  · by_cases affords : game.toCall player ≤ player.chips
    · refine ⟨.call (game.toCall player), listed _ (Or.inr (Or.inr (Or.inl ⟨rfl, ?_, affords⟩))),
        Or.inr (Or.inl rfl), ?_⟩
      · omega
      · rintro ⟨action, amount⟩ chosen
        have call : action = .call := by simpa [AvailableAction.admits] using chosen
        rw [process_accepts found own active, call]
        exact decide_eq_true (by omega)
    · refine ⟨.allIn player.chips, listed _ (Or.inr (Or.inr (Or.inr (Or.inr ⟨rfl, funded, ?_⟩)))),
        Or.inr (Or.inr rfl), ?_⟩
      · exact Or.inr ⟨by omega, by omega⟩
      · rintro ⟨action, amount⟩ chosen
        have allIn : action = .allIn := by simpa [AvailableAction.admits] using chosen
        rw [process_accepts found own active, allIn]
        exact decide_eq_true funded

end PokerGame

/-- A table before its first hand: up to ten players under any ids, with any chips they are
not in debt for, any blinds and any button. -/
structure Seating where
  smallBlind : Int
  bigBlind : Int
  players : List Player
  button : Nat
  few : players.length ≤ 10
  solvent : ∀ player ∈ players, 0 ≤ player.chips

namespace Seating

def game (seating : Seating) : PokerGame :=
  { smallBlind := seating.smallBlind
    bigBlind := seating.bigBlind
    players := seating.players
    dealerButton := seating.button }

def idsAreSeats (seating : Seating) : Prop :=
  seating.players.map Player.id = (List.range seating.players.length).map Int.ofNat

def opened (seating : Seating) (earlier : List Request) (shuffle : Shuffle) : PokerGame :=
  ((seating.game.afterAll earlier).serve (.call (.startNewHand shuffle))).2

theorem solvent_game (seating : Seating) : Solvent seating.game :=
  ⟨seating.few, seating.solvent, Int.le_refl 0, show 8 ≤ Deck.standard.length by decide⟩

theorem opened_fits (seating : Seating) (earlier : List Request) (shuffle : Shuffle) :
    Solvent (seating.opened earlier shuffle) ∧
      (∀ player ∈ (seating.opened earlier shuffle).players, player.StatusFits) ∧
      (seating.opened earlier shuffle).players.map Player.id = seating.players.map Player.id := by
  obtain ⟨solvent, ids⟩ := PokerGame.afterAll_solvent seating.solvent_game earlier
  refine ⟨PokerGame.serve_solvent solvent _, ?_, (PokerGame.serve_ids solvent _).trans ids⟩
  obtain ⟨next, returned⟩ :=
    (seating.game.afterAll earlier).startNewHand_returns shuffle solvent.few
  have next_eq : seating.opened earlier shuffle = next := by
    unfold opened PokerGame.serve
    dsimp only [PokerGame.perform]
    rw [returned]
    rfl
  rw [next_eq]
  exact PokerGame.startNewHand_fits solvent returned

end Seating

/-- Whatever requests come after a `start_new_hand` and before the showdown, every status
fits, whoever is out of the betting stays as he is, and where ids are seats the player to
act has something to do besides folding. -/
theorem statuses_fit (seating : Seating) (earlier : List Request) (shuffle : Shuffle)
    (first second : List Request)
    (inHand : Runs.meets PokerGame.serveStep PokerGame.staysInHand
      (seating.opened earlier shuffle) (first ++ second) = true) :
    (∀ player ∈ ((seating.opened earlier shuffle).afterAll first).players, player.StatusFits) ∧
      List.Forall₂
        (fun before after : Player => before.status ≠ .active →
          after.status = before.status ∧ after.chips = before.chips)
        ((seating.opened earlier shuffle).afterAll first).players
        ((seating.opened earlier shuffle).afterAll (first ++ second)).players ∧
      (seating.idsAreSeats →
        ∀ player, ((seating.opened earlier shuffle).afterAll first).Turn player →
          ∃ entry ∈ ((seating.opened earlier shuffle).afterAll first).getAvailableActions
              player.id,
            (entry = .check ∨
              entry = .call (((seating.opened earlier shuffle).afterAll first).toCall player) ∨
              entry = .allIn player.chips) ∧
            ∀ decision, entry.admits decision = true →
              (((seating.opened earlier shuffle).afterAll first).processPlayerAction player.id
                decision.action decision.amount).1 = true) := by
  obtain ⟨solvent, fits, ids⟩ := seating.opened_fits earlier shuffle
  generalize seating.opened earlier shuffle = opened at *
  obtain ⟨before, after⟩ := (Runs.meets_append (PokerGame.run_serveStep opened first)).mp inHand
  obtain ⟨still, idsToo⟩ := PokerGame.afterAll_solvent solvent first
  have reached : ∀ player ∈ (opened.afterAll first).players, player.StatusFits :=
    PokerGame.fits_of_playsOn (PokerGame.afterAll_playsOn solvent before) fits
  refine ⟨reached, ?_, ?_⟩
  · have whole : opened.afterAll (first ++ second) = (opened.afterAll first).afterAll second :=
      List.foldl_append ..
    rw [whole]
    exact (PokerGame.afterAll_playsOn still after).imp fun _ _ playsOn => playsOn.out
  · intro seats player turn
    have distinct : ((opened.afterAll first).players.map Player.id).Nodup := by
      rw [idsToo, ids, seats]
      exact List.nodup_range.map fun left right same => Int.ofNat.inj same
    have member := List.mem_of_getElem? turn.here
    have own : player.id = (opened.afterAll first).currentPlayerIndex := by
      have same := idsToo.trans (ids.trans seats)
      have here := congrArg (fun images => images[(opened.afterAll first).currentPlayerIndex]?) same
      simp only [List.getElem?_map, turn.here, Option.map_some] at here
      obtain ⟨seat, inside, equal⟩ := Option.map_eq_some_iff.mp here.symm
      obtain ⟨bound, value⟩ := List.getElem?_eq_some_iff.mp inside
      rw [List.getElem_range] at value
      rw [← equal, value]
      rfl
    exact PokerGame.offered_accepted (PokerGame.getPlayer_of_mem distinct member) own turn.active
      ((reached player member).active turn.active)

def shortBlind : Seating where
  smallBlind := 10
  bigBlind := 20
  players := [{ id := 0, chips := 100 }, { id := 1, chips := 5 }, { id := 2, chips := 0 },
    { id := 3, chips := 60 }]
  button := 3
  few := by decide
  solvent := by decide

def underRaise : List Request :=
  [.call (.processPlayerAction 0 .raise (-30))]

theorem statuses_fit_short_blind :
    (∀ player ∈ ((shortBlind.opened [] .unshuffled).afterAll underRaise).players,
        player.StatusFits) ∧
      ∃ player, ((shortBlind.opened [] .unshuffled).afterAll underRaise).Turn player ∧
        ∃ entry ∈ ((shortBlind.opened [] .unshuffled).afterAll underRaise).getAvailableActions
            player.id,
          ∀ decision, entry.admits decision = true →
            (((shortBlind.opened [] .unshuffled).afterAll underRaise).processPlayerAction
              player.id decision.action decision.amount).1 = true := by
  obtain ⟨fits, _, plays⟩ := statuses_fit shortBlind [] .unshuffled underRaise
    [.call (.processPlayerAction 3 .allIn 0), .call .advanceToNextPhase] (by decide)
  refine ⟨fits, _, ⟨rfl, rfl⟩, ?_⟩
  obtain ⟨entry, listed, _, accepted⟩ := plays rfl _ ⟨rfl, rfl⟩
  exact ⟨entry, listed, accepted⟩

end Holdem
