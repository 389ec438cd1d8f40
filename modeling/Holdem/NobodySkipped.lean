import Holdem.RoundEnd

set_option autoImplicit false

namespace Holdem

/-- A driver state together with the seats that have acted on this street at or after the
last action that lifted the current bet. -/
structure Tracked where
  state : DriverState
  acted : List Nat

def recordActor (before after : PokerGame) (acted : List Nat) : List Nat :=
  if before.currentBet < after.currentBet then [before.currentPlayerIndex]
  else before.currentPlayerIndex :: acted

def trackedStep (tracked : Tracked) (event : DriverEvent) : Option Tracked :=
  (driverStep tracked.state event).map fun next =>
    ⟨next,
      match event with
      | .decide _ => recordActor tracked.state.game next.game tracked.acted
      | .skip => tracked.acted
      | _ => []⟩

/-- Where an open round stands: raised, opened on a later street, or on the blinds. -/
inductive Tracks (game : PokerGame) (acted : List Nat) (base : Nat) : Prop
  | raised (raiser : game.lastRaiserIndex.isSome = true)
      (flag : game.hasBetOrRaiseThisRound = true)
      (owing : ∀ (seat : Nat) (player : Player), game.players[seat]? = some player →
        player.status = .active → seat ∉ acted → player.currentBet < game.currentBet)
  | opening (raiser : game.lastRaiserIndex = none) (later : game.currentPhase ≠ .preflop)
      (dealer : base = game.dealerButton) (zero : game.currentBet = 0)
      (passed : ∀ seat, game.isActive seat = true →
        Clockwise.place game.players.length base seat <
          Clockwise.place game.players.length base game.currentPlayerIndex → seat ∈ acted)
  | blinds (raiser : game.lastRaiserIndex = some base)
      (flag : game.hasBetOrRaiseThisRound = false)
      (passed : ∀ seat, game.isActive seat = true →
        Clockwise.place game.players.length base seat <
          Clockwise.place game.players.length base game.currentPlayerIndex → seat ∈ acted)
      (ahead : ∀ seat, game.isActive seat = true →
        Clockwise.place game.players.length base game.currentPlayerIndex ≤
          Clockwise.place game.players.length base seat → seat ∉ acted)
      (owing : ∀ (seat : Nat) (player : Player), game.players[seat]? = some player →
        player.status = .active → seat ≠ base → seat ∉ acted →
        player.currentBet < game.currentBet)

/-- The record of an open round is right. -/
structure OnTrack (game : PokerGame) (acted : List Nat) (base : Nat) : Prop where
  lap : Lap game base
  tracks : Tracks game acted base
  turn : game.isActive game.currentPlayerIndex = true ∨ acted = []

section Actions

variable {table : Table} {game : PokerGame} {acted : List Nat} {base : Nat} {player : Player}
  {action : Action} {amount : Int} {done : Performed}

theorem PokerGame.afterAction_seat (seated : Seated table game) (turn : game.Turn player)
    (performed : game.performAction player player.id action amount = some done) {seat : Nat}
    {other : Player}
    (here : (game.afterAction done player.id action amount).players[seat]? = some other) :
    (seat = game.currentPlayerIndex ∧ other = done.player) ∨
      (seat ≠ game.currentPlayerIndex ∧ game.players[seat]? = some other) := by
  obtain ⟨_, _, frame⟩ := game.afterAction_frame done player.id action amount
  rw [frame] at here
  exact PokerGame.commit_seat seated turn performed here

theorem PokerGame.afterAction_was_active (seated : Seated table game) (turn : game.Turn player)
    (performed : game.performAction player player.id action amount = some done) {seat : Nat}
    (active : (game.afterAction done player.id action amount).isActive seat = true) :
    game.isActive seat = true := by
  obtain ⟨_, _, frame⟩ := game.afterAction_frame done player.id action amount
  rw [frame] at active
  exact PokerGame.commit_active seated turn performed active

/-- The record after a quiet action of a round that stays open. -/
theorem OnTrack.quiet (track : OnTrack game acted base) (seated : Seated table game)
    (inPlay : InPlay game) (turn : game.Turn player)
    (performed : game.performAction player player.id action amount = some done)
    (quiet : done.Quiet game player)
    (running : (game.afterAction done player.id action amount).bettingRoundComplete = false) :
    OnTrack (game.afterAction done player.id action amount)
      (game.currentPlayerIndex :: acted) base := by
  obtain ⟨lap, tracks, _⟩ := track
  have size := PokerGame.afterAction_length seated turn performed
  obtain ⟨kept, further, nearest⟩ :=
    (lap.quiet seated inPlay turn performed quiet).resolve_left (by simp [running])
  have active := (PokerGame.afterAction_active seated turn inPlay.turn performed).resolve_left
    (by simp [running])
  have before : ∀ {seat}, (game.afterAction done player.id action amount).isActive seat = true →
      game.isActive seat = true := fun acts =>
    PokerGame.afterAction_was_active seated turn performed acts
  -- nobody `ACTIVE` sits between the actor and the new turn
  have upto : ∀ {seat}, (game.afterAction done player.id action amount).isActive seat = true →
      Clockwise.place game.players.length base seat <
        Clockwise.place game.players.length base
          (game.afterAction done player.id action amount).currentPlayerIndex →
      seat = game.currentPlayerIndex ∨ Clockwise.place game.players.length base seat <
        Clockwise.place game.players.length base game.currentPlayerIndex := by
    intro seat acts earlier
    by_cases same : Clockwise.place game.players.length base seat =
        Clockwise.place game.players.length base game.currentPlayerIndex
    · exact Or.inl (Clockwise.place_injective lap.inside
        (PokerGame.isActive_lt (before acts)) inPlay.turn same)
    · refine Or.inr ?_
      by_contra late
      have := nearest seat acts (by omega)
      omega
  obtain ⟨next, complete, frame⟩ := game.afterAction_frame done player.id action amount
  refine ⟨kept, ?_, Or.inl active⟩
  obtain ⟨bet, raiserSame, flagSame⟩ :=
    PokerGame.afterAction_of_quiet quiet action amount
  cases tracks with
  | raised raiser flag owing =>
      refine .raised (raiserSame ▸ raiser) (flagSame ▸ flag) ?_
      intro seat other here status fresh
      rw [bet]
      rcases PokerGame.afterAction_seat seated turn performed here with ⟨rfl, _⟩ | ⟨_, there⟩
      · simp at fresh
      · exact owing seat other there status fun old => fresh (List.mem_cons_of_mem _ old)
  | opening raiser later dealer zero passed =>
      refine .opening (raiserSame ▸ raiser) ?_ ?_ (bet ▸ zero) ?_
      · rw [frame]
        exact later
      · rw [frame]
        exact dealer
      · intro seat acts earlier
        rw [size] at earlier
        rcases upto acts earlier with rfl | passing
        · exact List.mem_cons_self
        · exact List.mem_cons_of_mem _ (passed seat (before acts) passing)
  | blinds raiser flag passed ahead owing =>
      refine .blinds (raiserSame ▸ raiser) (flagSame ▸ flag) ?_ ?_ ?_
      · intro seat acts earlier
        rw [size] at earlier
        rcases upto acts earlier with rfl | passing
        · exact List.mem_cons_self
        · exact List.mem_cons_of_mem _ (passed seat (before acts) passing)
      · intro seat acts later
        rw [size] at later
        have apart : seat ≠ game.currentPlayerIndex := by
          rintro rfl
          omega
        have fresh := ahead seat (before acts) (by omega)
        simp [apart, fresh]
      · intro seat other here status notBase fresh
        rw [bet]
        rcases PokerGame.afterAction_seat seated turn performed here with ⟨rfl, _⟩ | ⟨_, there⟩
        · simp at fresh
        · exact owing seat other there status notBase
            fun old => fresh (List.mem_cons_of_mem _ old)

/-- The record after a raise of a round that stays open: only the raiser is on it. -/
theorem OnTrack.raise (track : OnTrack game acted base) (seated : Seated table game)
    (inPlay : InPlay game) (turn : game.Turn player)
    (performed : game.performAction player player.id action amount = some done)
    (raises : done.Raises game player)
    (running : (game.afterAction done player.id action amount).bettingRoundComplete = false) :
    ∃ fresh, OnTrack (game.afterAction done player.id action amount)
      [game.currentPlayerIndex] fresh := by
  obtain ⟨fresh, kept⟩ := (track.lap.raise seated inPlay turn performed raises).resolve_left
    (by simp [running])
  have active := (PokerGame.afterAction_active seated turn inPlay.turn performed).resolve_left
    (by simp [running])
  refine ⟨fresh, kept, ?_, Or.inl active⟩
  obtain ⟨next, complete, frame⟩ := game.afterAction_frame done player.id action amount
  refine .raised ?_ ?_ ?_
  · rw [frame]
    change done.lastRaiserIndex.isSome = true
    rw [raises.raiser]
    rfl
  · rw [frame]
    exact raises.flag
  · intro seat other here status apart
    have bet : (game.afterAction done player.id action amount).currentBet = done.currentBet := by
      rw [frame]
      rfl
    rw [bet]
    rcases PokerGame.afterAction_seat seated turn performed here with ⟨rfl, _⟩ | ⟨_, there⟩
    · simp at apart
    · have low := track.lap.bounded other (List.mem_of_getElem? there) status
      have higher := raises.higher
      omega

theorem PokerGame.closed_round (seated : Seated table game) (turn : game.Turn player)
    (inside : game.currentPlayerIndex < game.players.length)
    (performed : game.performAction player player.id action amount = some done)
    (running : game.bettingRoundComplete = false)
    (closed : (game.afterAction done player.id action amount).bettingRoundComplete = true)
    (two : 2 ≤ (game.afterAction done player.id action amount).activePlayers.length) :
    ∃ next, Clockwise.search game.players.length
        (game.commitAction done player.id action amount).isActive game.currentPlayerIndex
        game.players.length = some next ∧
      (game.turnedTo done player.id action amount next).AllMatched ∧
      (game.turnedTo done player.id action amount next).atFinish = true := by
  have size := PokerGame.commit_length seated turn performed
  obtain ⟨_, _, frame⟩ := game.afterAction_frame done player.id action amount
  have count : 2 ≤ (game.commitAction done player.id action amount).activePlayers.length := by
    rw [frame] at two
    exact two
  rcases game.afterAction_cases done player.id action amount (size ▸ inside) with
    ⟨nobody, _⟩ | ⟨next, found, moved⟩
  · obtain ⟨seat, acts, _⟩ := PokerGame.another_active count 0
    rw [nobody seat] at acts
    cases acts
  · rw [size] at found
    refine ⟨next, found, ?_⟩
    rw [moved, PokerGame.checked_complete, Bool.or_eq_true] at closed
    apply PokerGame.matched_of_roundIsOver (closed.resolve_left ?_) count
    change ¬ game.bettingRoundComplete = true
    rw [running]
    decide

/-- A raise cannot close a round over anyone but the raiser. -/
theorem OnTrack.closed_by_raise (track : OnTrack game acted base) (seated : Seated table game)
    (inPlay : InPlay game) (turn : game.Turn player)
    (performed : game.performAction player player.id action amount = some done)
    (raises : done.Raises game player) (running : game.bettingRoundComplete = false)
    (closed : (game.afterAction done player.id action amount).bettingRoundComplete = true)
    (two : 2 ≤ (game.afterAction done player.id action amount).activePlayers.length)
    {seat : Nat} (active : (game.afterAction done player.id action amount).isActive seat = true) :
    seat ∈ [game.currentPlayerIndex] := by
  obtain ⟨next, _, matched, _⟩ :=
    PokerGame.closed_round seated turn inPlay.turn performed running closed two
  obtain ⟨_, _, frame⟩ := game.afterAction_frame done player.id action amount
  rw [frame] at active
  obtain ⟨other, here, status⟩ := PokerGame.isActive_iff.mp active
  rcases PokerGame.commit_seat seated turn performed here with ⟨rfl, _⟩ | ⟨_, there⟩
  · exact List.mem_singleton_self _
  · have equal : other.currentBet = done.currentBet := matched seat other here status
    have low := track.lap.bounded other (List.mem_of_getElem? there) status
    have higher := raises.higher
    omega

/-- The finish of an unopened pot is the first `ACTIVE` seat after the dealer. -/
theorem PokerGame.finish_first {next : Nat} (quiet : done.Quiet game player)
    (raiser : game.lastRaiserIndex = none) (later : game.currentPhase ≠ .preflop)
    (inside : game.dealerButton < (game.commitAction done player.id action amount).players.length)
    (active : (game.commitAction done player.id action amount).isActive next = true)
    (finish : (game.turnedTo done player.id action amount next).atFinish = true) :
    ∀ other, (game.commitAction done player.id action amount).isActive other = true →
      Clockwise.place (game.commitAction done player.id action amount).players.length
          game.dealerButton next ≤
        Clockwise.place (game.commitAction done player.id action amount).players.length
          game.dealerButton other := by
  have raiserAfter : (game.turnedTo done player.id action amount next).lastRaiserIndex = none :=
    quiet.raiser.trans raiser
  have based : (game.turnedTo done player.id action amount next).phaseBase =
      some game.dealerButton := if_neg later
  obtain ⟨first, chosen, _, least⟩ :=
    PokerGame.getFirstActorForPhase_spec based inside ⟨next, active⟩
  unfold PokerGame.atFinish at finish
  rw [raiserAfter] at finish
  simp only [Option.isSome_none, Bool.false_and, Bool.false_eq_true, ↓reduceIte, chosen,
    beq_iff_eq, Option.some.injEq] at finish
  have same : next = first := finish
  intro other acts
  rw [same]
  exact least other acts

/-- The finish of an unraised round with its raiser still `ACTIVE` comes before the raiser. -/
theorem PokerGame.finish_after_raiser {next : Nat} (quiet : done.Quiet game player)
    (raiser : game.lastRaiserIndex = some base) (flag : game.hasBetOrRaiseThisRound = false)
    (active : (game.commitAction done player.id action amount).isActive base = true)
    (inside : base < (game.commitAction done player.id action amount).players.length)
    (finish : (game.turnedTo done player.id action amount next).atFinish = true) :
    Clockwise.place (game.commitAction done player.id action amount).players.length base next <
      (game.commitAction done player.id action amount).players.length - 1 := by
  have raiserAfter : (game.turnedTo done player.id action amount next).lastRaiserIndex =
      some base := quiet.raiser.trans raiser
  have flagAfter : (game.turnedTo done player.id action amount next).hasBetOrRaiseThisRound =
      false := quiet.flag.trans flag
  have acts : (game.turnedTo done player.id action amount next).isActive base = true := active
  unfold PokerGame.atFinish at finish
  rw [raiserAfter, flagAfter] at finish
  simp only [Option.isSome_some, Bool.and_false, Bool.false_eq_true, ↓reduceIte, acts,
    Bool.not_true, beq_iff_eq] at finish
  exact ((Clockwise.search_eq_some_iff inside (Nat.sub_le _ 1)).mp finish.symm).2.2.1

theorem PokerGame.active_elsewhere (seated : Seated table game) (turn : game.Turn player)
    (performed : game.performAction player player.id action amount = some done) {seat : Nat}
    (active : (game.commitAction done player.id action amount).isActive seat = true)
    (apart : seat ≠ game.currentPlayerIndex) :
    ∃ other, (game.commitAction done player.id action amount).players[seat]? = some other ∧
      game.players[seat]? = some other ∧ other.status = .active := by
  obtain ⟨other, here, status⟩ := PokerGame.isActive_iff.mp active
  obtain ⟨_, there⟩ := (PokerGame.commit_seat seated turn performed here).resolve_left
    (fun atTurn => apart atTurn.1)
  exact ⟨other, here, there, status⟩

theorem PokerGame.actor_first {next : Nat} (seated : Seated table game) (turn : game.Turn player)
    (performed : game.performAction player player.id action amount = some done)
    (later : game.currentPhase ≠ .preflop) (inside : game.dealerButton < game.players.length)
    (least : ∀ other, (game.commitAction done player.id action amount).isActive other = true →
      Clockwise.place game.players.length game.dealerButton next ≤
        Clockwise.place game.players.length game.dealerButton other)
    (ahead : Clockwise.place game.players.length game.dealerButton game.currentPlayerIndex <
      Clockwise.place game.players.length game.dealerButton next) :
    game.getFirstActorForPhase = some game.currentPlayerIndex := by
  have acts : game.isActive game.currentPlayerIndex = true :=
    PokerGame.isActive_iff.mpr ⟨player, turn.here, turn.active⟩
  have based : game.phaseBase = some game.dealerButton := by
    simp [PokerGame.phaseBase, later]
  obtain ⟨front, chosen, frontActs, order⟩ :=
    PokerGame.getFirstActorForPhase_spec based inside ⟨_, acts⟩
  rw [chosen]
  by_contra apart
  have apart : front ≠ game.currentPlayerIndex := fun same => apart (by rw [same])
  have := least front (PokerGame.commit_active_of_ne seated turn performed apart frontActs)
  have := order game.currentPlayerIndex acts
  omega

/-- A quiet action closes a round only over players on the record, unless the first actor
of a later street has just left an unopened pot. -/
theorem OnTrack.closed_by_quiet (track : OnTrack game acted base) (seated : Seated table game)
    (inPlay : InPlay game) (turn : game.Turn player)
    (performed : game.performAction player player.id action amount = some done)
    (quiet : done.Quiet game player) (running : game.bettingRoundComplete = false)
    (closed : (game.afterAction done player.id action amount).bettingRoundComplete = true)
    (two : 2 ≤ (game.afterAction done player.id action amount).activePlayers.length)
    (stays : game.currentPhase ≠ .preflop → game.currentBet = 0 →
      game.getFirstActorForPhase = some game.currentPlayerIndex → done.player.status = .active)
    {seat : Nat} (active : (game.afterAction done player.id action amount).isActive seat = true) :
    seat ∈ game.currentPlayerIndex :: acted := by
  have size := PokerGame.commit_length seated turn performed
  have inside := track.lap.inside
  obtain ⟨next, found, matched, finish⟩ :=
    PokerGame.closed_round seated turn inPlay.turn performed running closed two
  obtain ⟨nextIn, nextActs, _⟩ :=
    (Clockwise.search_eq_some_iff inPlay.turn (Nat.le_refl _)).mp found
  obtain ⟨_, _, frame⟩ := game.afterAction_frame done player.id action amount
  rw [frame] at active
  have active : (game.commitAction done player.id action amount).isActive seat = true := active
  by_cases actor : seat = game.currentPlayerIndex
  · rw [actor]
    exact List.mem_cons_self
  refine List.mem_cons_of_mem _ ?_
  obtain ⟨other, here, there, status⟩ :=
    PokerGame.active_elsewhere seated turn performed active actor
  have wasActive : game.isActive seat = true := PokerGame.isActive_iff.mpr ⟨other, there, status⟩
  have seatIn := PokerGame.isActive_lt wasActive
  have equal : other.currentBet = game.currentBet := by
    have := matched seat other here status
    exact this.trans quiet.bet
  -- an `ACTIVE` seat not past the actor has been passed already
  have earlier : Clockwise.place game.players.length base seat ≤
      Clockwise.place game.players.length base game.currentPlayerIndex →
      Clockwise.place game.players.length base seat <
        Clockwise.place game.players.length base game.currentPlayerIndex := by
    intro upto
    have differ := Clockwise.place_ne inside seatIn inPlay.turn actor
    omega
  cases track.tracks with
  | raised raiser flag owing =>
      by_contra fresh
      have := owing seat other there status fresh
      omega
  | opening raiser later dealer zero passed =>
      rcases Clockwise.search_forward_or_wraps inside inPlay.turn found with
        ⟨ahead, _⟩ | ⟨_, everyone⟩
      · -- the finish lies ahead of the actor only when the actor was first and has left
        exfalso
        have least := PokerGame.finish_first quiet raiser later (by rw [size, ← dealer]; exact inside)
          nextActs finish
        rw [size, ← dealer] at least
        have first := PokerGame.actor_first seated turn performed later (dealer ▸ inside)
          (dealer ▸ least) (dealer ▸ ahead)
        have remains : (game.commitAction done player.id action amount).isActive
            game.currentPlayerIndex = true := by
          refine PokerGame.isActive_iff.mpr ⟨done.player, ?_, stays later zero first⟩
          rw [PokerGame.commitAction_players seated turn performed,
            List.getElem?_set_self inPlay.turn]
        have := least game.currentPlayerIndex remains
        omega
      · exact passed seat wasActive (earlier (everyone seat seatIn active).2)
  | blinds raiser flag passed ahead owing =>
      by_cases atBase : seat = base
      · rcases Clockwise.search_forward_or_wraps inside inPlay.turn found with
          ⟨forward, _⟩ | ⟨_, everyone⟩
        · -- the finish would be a seat that has not acted and still owes chips
          exfalso
          have place := PokerGame.finish_after_raiser quiet raiser flag (atBase ▸ active)
            (size ▸ inside) finish
          rw [size] at place
          have notBase : next ≠ base := by
            rintro rfl
            rw [Clockwise.place_self inside] at place
            omega
          obtain ⟨nextPlayer, nextHere, nextThere, nextStatus⟩ :=
            PokerGame.active_elsewhere seated turn performed nextActs (fun same => by
              rw [same] at forward
              omega)
          have fresh := ahead next
            (PokerGame.isActive_iff.mpr ⟨nextPlayer, nextThere, nextStatus⟩) (by omega)
          have owes := owing next nextPlayer nextThere nextStatus notBase fresh
          have level : nextPlayer.currentBet = game.currentBet :=
            (matched next nextPlayer nextHere nextStatus).trans quiet.bet
          omega
        · exact passed seat wasActive (earlier (everyone seat seatIn active).2)
      · by_contra fresh
        have := owing seat other there status atBase fresh
        omega

end Actions

/-! ### Runs -/

/-- Everyone who leaves without being all-in for more has folded. -/
theorem PokerGame.foldsOn_of_leaving {table : Table} {game : PokerGame} {player : Player}
    {action : Action} {amount : Int} {done : Performed} {decision : Decision}
    (seated : Seated table game) (turn : game.Turn player) (funded : 0 < player.chips)
    (level : game.currentBet ≤ player.currentBet)
    (listed : game.isListed player.id decision = true)
    (performed : game.performAction player player.id action amount = some done)
    (quiet : done.Quiet game player) (fair : action = .raise → 0 < amount)
    (which : (action = decision.action ∧ amount = decision.amount) ∨
      (action = .fold ∧ game.performAction player player.id decision.action
        decision.amount = none))
    (leaves : done.player.status ≠ .active) : game.foldsOn player decision = true := by
  have staying := turn.active
  rcases which with ⟨same, _⟩ | ⟨_, rejected⟩
  · have bounded : ∀ stake, (player.bet stake).2.currentBet =
        player.currentBet + max 0 (min stake player.chips) := by
      intro stake
      obtain ⟨paid, _, bet, _⟩ := player.bet_spec stake (Int.le_of_lt funded)
      rw [bet, paid]
    have lifted := quiet.bet
    cases action <;> simp only [performAction] at performed
    case fold => simp [PokerGame.foldsOn, ← same]
    case check =>
      split at performed <;> cases performed
      exact absurd staying leaves
    case call =>
      rw [if_pos (by omega)] at performed
      cases performed
      exact absurd staying leaves
    case raise =>
      split at performed <;> cases performed
      have := bounded (game.currentBet - player.currentBet + amount)
      have := fair rfl
      dsimp only at lifted
      omega
    case allIn =>
      have := bounded player.chips
      rw [if_neg (by omega), if_pos (by omega)] at performed
      cases performed
      dsimp only at lifted
      omega
    case unknown => cases performed
  · exact foldsOn_of_rejected seated turn funded listed rejected

/-- The decision makes the first actor of a later street leave an unopened pot to two or
more `ACTIVE` players. -/
def firstActorLeaves (state : DriverState) (event : DriverEvent) : Bool :=
  match event with
  | .decide decision =>
      state.game.currentPhase != .preflop && state.game.currentBet == 0 &&
        state.game.getFirstActorForPhase == some state.game.currentPlayerIndex &&
        decide (3 ≤ state.game.activePlayers.length) &&
        (state.game.players[state.game.currentPlayerIndex]?).any fun player =>
          state.game.foldsOn player decision
  | _ => false

/-- The big blind of a hand about to start posts more than the small blind, or the small
blind posts its last chips. -/
def bigBlindAbove (state : DriverState) (event : DriverEvent) : Bool :=
  match event with
  | .newHand shuffle =>
      decide ((state.game.blindPosts shuffle).1 < (state.game.blindPosts shuffle).2) ||
        state.game.smallBlindBroke shuffle
  | _ => true

/-- The steps that keep the order of play. -/
def keepsOrder (state : DriverState) (event : DriverEvent) : Bool :=
  bigBlindAbove state event && !firstActorLeaves state event

theorem PokerGame.activePlayers_of_leaving {table : Table} {game : PokerGame} {player : Player}
    {action : Action} {amount : Int} {done : Performed} (seated : Seated table game)
    (turn : game.Turn player)
    (performed : game.performAction player player.id action amount = some done)
    (leaves : done.player.status ≠ .active) :
    game.activePlayers.length =
      (game.afterAction done player.id action amount).activePlayers.length + 1 := by
  obtain ⟨inside, atTurn⟩ := List.getElem?_eq_some_iff.mp turn.here
  obtain ⟨_, _, frame⟩ := game.afterAction_frame done player.id action amount
  have after : (game.afterAction done player.id action amount).activePlayers.length =
      (game.players.set game.currentPlayerIndex done.player).countP
        fun player => player.status == .active := by
    rw [frame, List.countP_eq_length_filter, ← commitAction_players seated turn performed]
    rfl
  have counted : 0 < game.players.countP fun player => player.status == .active :=
    List.countP_pos_iff.mpr ⟨player, List.mem_of_getElem? turn.here, by simp [turn.active]⟩
  rw [after, List.countP_set inside, atTurn]
  simp only [turn.active, BEq.rfl, ↓reduceIte, beq_iff_eq, leaves, Nat.add_zero]
  unfold activePlayers
  rw [← List.countP_eq_length_filter]
  omega

/-- The record of the open round of a driver state is right. -/
def OnRecord (tracked : Tracked) : Prop :=
  tracked.state.stage = .inHand → tracked.state.game.bettingRoundComplete = false →
    ∃ base, OnTrack tracked.state.game tracked.acted base

section Steps

variable {table : Table} {before after : Tracked}

/-- What a decision does to the record: the round stays open on a right record, or it
closes over players on the record only. -/
theorem decide_on_record (blinds : 0 < table.smallBlind ∧ table.smallBlind < table.bigBlind)
    (reached : Reached table before.state) (record : OnRecord before) {decision : Decision}
    (listed : listedStep before.state (.decide decision) = true)
    (keeps : keepsOrder before.state (.decide decision) = true)
    (taken : trackedStep before (.decide decision) = some after) :
    (after.state.game.bettingRoundComplete = false →
        ∃ base, OnTrack after.state.game after.acted base) ∧
      (after.state.game.bettingRoundComplete = true →
        2 ≤ after.state.game.activePlayers.length →
        ∀ seat, after.state.game.isActive seat = true → seat ∈ after.acted) := by
  obtain ⟨next, stepped, rfl⟩ := Option.map_eq_some_iff.mp taken
  obtain ⟨stage, _, running, _⟩ := driverStep_decide stepped
  obtain ⟨player, action, amount, done, turn, performed, rfl, outcome, which⟩ :=
    reached.outcome (by omega) listed stepped
  obtain ⟨base, track⟩ := record stage running
  have inPlay := reached.inPlay stage
  have seated := reached.seated
  obtain ⟨_, _, frame⟩ := before.state.game.afterAction_frame done player.id action amount
  have bet : (before.state.game.afterAction done player.id action amount).currentBet =
      done.currentBet := by
    rw [frame]
    rfl
  dsimp only
  rcases outcome with quiet | raises
  · have acted : recordActor before.state.game
        (before.state.game.afterAction done player.id action amount) before.acted =
        before.state.game.currentPlayerIndex :: before.acted := by
      unfold recordActor
      rw [bet, quiet.bet, if_neg (Int.lt_irrefl _)]
    rw [acted]
    refine ⟨fun open_ => ⟨base, track.quiet seated inPlay turn performed quiet open_⟩, ?_⟩
    intro closed two seat active
    refine track.closed_by_quiet seated inPlay turn performed quiet running closed two ?_ active
    intro later zero first
    by_contra leaves
    -- this is the decision that the condition excludes
    have member := List.mem_of_getElem? turn.here
    have funded := inPlay.funded player member turn.active
    have own := (inPlay.bounds player member).2.1
    simp only [listedStep, turn.here, Option.any_some] at listed
    have big : 0 < before.state.game.bigBlind := by
      rw [seated.blinds.2]
      omega
    have fair : action = .raise → 0 < amount := by
      intro raising
      rcases which with ⟨same, amounts⟩ | ⟨folding, _⟩
      · rw [amounts]
        exact PokerGame.listed_fair seated turn big inPlay.bet listed (same ▸ raising)
      · rw [folding] at raising
        cases raising
    have folds := PokerGame.foldsOn_of_leaving seated turn funded (by omega) listed performed
      quiet fair which leaves
    have three : 3 ≤ before.state.game.activePlayers.length := by
      rw [PokerGame.activePlayers_of_leaving seated turn performed leaves]
      omega
    simp [keepsOrder, firstActorLeaves, later, zero, first, three, turn.here, folds] at keeps
  · have acted : recordActor before.state.game
        (before.state.game.afterAction done player.id action amount) before.acted =
        [before.state.game.currentPlayerIndex] := by
      unfold recordActor
      rw [bet, if_pos raises.higher]
    rw [acted]
    refine ⟨fun open_ => track.raise seated inPlay turn performed raises open_, ?_⟩
    intro closed two seat active
    exact track.closed_by_raise seated inPlay turn performed raises running closed two active

theorem OnTrack.skip {game : PokerGame} {acted : List Nat} {base : Nat}
    (track : OnTrack game acted base) (inside : game.currentPlayerIndex < game.players.length)
    (idle : game.isActive game.currentPlayerIndex = false)
    (running : game.advanceToNextPlayer.bettingRoundComplete = false) :
    OnTrack game.advanceToNextPlayer acted base := by
  obtain ⟨lap, tracks, turn⟩ := track
  obtain rfl : acted = [] := turn.resolve_left (by simp [idle])
  have kept := (lap.skip inside idle).resolve_left (by simp [running])
  have active := (game.advance_active inside).resolve_left (by simp [running])
  refine ⟨kept, ?_, Or.inl active⟩
  revert running kept active
  unfold PokerGame.advanceToNextPlayer
  dsimp only
  split
  · rename_i next found
    intro _ _ _
    -- nobody `ACTIVE` sat before the old turn, so nobody sits before the new one
    have nobody : (∀ seat, game.isActive seat = true →
        Clockwise.place game.players.length base seat <
          Clockwise.place game.players.length base game.currentPlayerIndex → seat ∈ ([] : List Nat)) →
        ∀ seat, game.isActive seat = true → Clockwise.place game.players.length base seat <
          Clockwise.place game.players.length base next → seat ∈ ([] : List Nat) := by
      intro passed seat acts earlier
      have seatIn := PokerGame.isActive_lt acts
      apply passed seat acts
      have differ : Clockwise.place game.players.length base seat ≠
          Clockwise.place game.players.length base game.currentPlayerIndex := by
        intro same
        rw [Clockwise.place_injective lap.inside seatIn inside same, idle] at acts
        cases acts
      rcases Clockwise.search_forward_or_wraps lap.inside inside found with
        ⟨_, nearest⟩ | ⟨_, everyone⟩
      · by_contra late
        have := nearest seat seatIn acts (by omega)
        omega
      · have := (everyone seat seatIn acts).2
        omega
    cases tracks with
    | raised raiser flag owing => exact .raised raiser flag owing
    | opening raiser later dealer zero passed =>
        exact .opening raiser later dealer zero (nobody passed)
    | blinds raiser flag passed _ owing =>
        exact .blinds raiser flag (nobody passed) (fun _ _ _ => List.not_mem_nil) owing
  · intro running
    cases running

theorem OpenedHand.onTrack {game next : PokerGame} {shuffle : Shuffle} {button : Nat}
    (hand : OpenedHand game button (game.nextBlinds shuffle).1 (game.nextBlinds shuffle).2 next)
    (small : 0 < game.smallBlind) (big : 0 < game.bigBlind)
    (solvent : ∀ player ∈ game.players, 0 ≤ player.chips)
    (above : (game.blindPosts shuffle).1 < (game.blindPosts shuffle).2 ∨
      game.smallBlindBroke shuffle = true) :
    OnTrack next [] (game.nextBlinds shuffle).2 := by
  refine ⟨hand.lap small big solvent (above.imp_left Int.le_of_lt), ?_, Or.inr rfl⟩
  refine .blinds hand.lastRaiser hand.unraised ?_ (fun _ _ _ => List.not_mem_nil) ?_
  · intro seat acts earlier
    obtain ⟨player, here, active⟩ := PokerGame.isActive_iff.mp acts
    have order := hand.turnFirst seat (hand.hasChips_of_active solvent here active)
    rw [hand.length] at earlier
    omega
  · intro seat player here active notBig _
    obtain ⟨before, there, chips⟩ := hand.bigAlive
    have bigPost : 0 < (game.blindPosts shuffle).2 := by
      simp only [PokerGame.blindPosts, PokerGame.stackAt, there, Option.map_some, Option.getD_some]
      omega
    obtain ⟨bet, stays⟩ := hand.bet_of_seat small big solvent here
    rw [bet, hand.currentBet_eq small big solvent, if_neg notBig]
    split
    · rename_i atSmall
      rcases above with less | broke
      · exact less
      · rw [stays atSmall active] at broke
        cases broke
    · exact bigPost

theorem onTrack_of_street {game : PokerGame} {phase : GamePhase} {count : Nat}
    {describe : List Card → String} (later : phase ≠ .preflop)
    (dealer : game.dealerButton < game.players.length)
    (running : (game.dealtStreet count phase describe).startNewBettingRound.bettingRoundComplete =
      false) :
    OnTrack (game.dealtStreet count phase describe).startNewBettingRound [] game.dealerButton := by
  refine ⟨lap_of_street later dealer, ?_, Or.inr rfl⟩
  obtain ⟨seat, complete, frame, _, _, first⟩ :=
    (game.dealtStreet count phase describe).startNewBettingRound_spec
  rw [frame] at running ⊢
  obtain ⟨_, least⟩ := first running later dealer
  refine .opening rfl later rfl rfl ?_
  intro other acts earlier
  have sameActive : (game.dealtStreet count phase describe).isActive other = true := by
    simp only [PokerGame.isActive, List.getElem?_map, Option.any_map] at acts
    exact acts
  have order := least other sameActive
  simp only [List.length_map] at earlier
  have : Clockwise.place game.players.length game.dealerButton seat ≤
      Clockwise.place game.players.length game.dealerButton other := order
  have : Clockwise.place game.players.length game.dealerButton other <
      Clockwise.place game.players.length game.dealerButton seat := earlier
  omega

theorem onRecord_step (blinds : 0 < table.smallBlind ∧ table.smallBlind < table.bigBlind)
    (reached : Reached table before.state) (record : OnRecord before) {event : DriverEvent}
    (listed : listedStep before.state event = true)
    (keeps : keepsOrder before.state event = true)
    (taken : trackedStep before event = some after) : OnRecord after := by
  intro stays running
  obtain ⟨next, stepped, shape⟩ := Option.map_eq_some_iff.mp taken
  cases event with
  | newHand shuffle =>
      subst shape
      obtain ⟨_, _, button, hand⟩ := reached.opened stepped
      have small : 0 < before.state.game.smallBlind := reached.seated.blinds.1 ▸ blinds.1
      have big : 0 < before.state.game.bigBlind := by
        rw [reached.seated.blinds.2]
        omega
      exact ⟨_, OpenedHand.onTrack hand small big reached.solvent.chips
        (by simpa [keepsOrder, bigBlindAbove, firstActorLeaves] using keeps)⟩
  | skip =>
      subst shape
      obtain ⟨stage, _, open_, idle, rfl⟩ := driverStep_skip stepped
      obtain ⟨base, track⟩ := record stage open_
      exact ⟨base, track.skip (reached.inPlay stage).turn idle running⟩
  | decide decision => exact (decide_on_record blinds reached record listed keeps taken).1 running
  | nextPhase =>
      subst shape
      obtain ⟨stage, complete, shown | ⟨phase, count, describe, later, _, _, _, opened⟩⟩ :=
        reached.phaseMoved stepped stays
      · dsimp only at running
        rw [shown, show _ = true from complete] at running
        cases running
      · dsimp only at running ⊢
        rw [opened] at running ⊢
        exact ⟨_, onTrack_of_street later (reached.inPlay stage).dealer running⟩
  | showdown =>
      subst shape
      obtain ⟨_, _, _, _, ended⟩ := driverStep_showdown stepped
      dsimp only at stays
      rw [ended] at stays
      cases stays

end Steps

theorem PokerGame.nobody_of_advance_closed {game : PokerGame}
    (inside : game.currentPlayerIndex < game.players.length)
    (running : game.bettingRoundComplete = false)
    (closed : game.advanceToNextPlayer.bettingRoundComplete = true) :
    ∀ seat, game.advanceToNextPlayer.isActive seat = false := by
  revert closed
  unfold PokerGame.advanceToNextPlayer
  dsimp only
  split
  · intro closed
    rw [running] at closed
    cases closed
  · rename_i missing
    intro _ seat
    exact PokerGame.nobody_of_search inside missing seat

def Table.startTracked (table : Table) : Tracked := ⟨table.start, []⟩

/-- Along every run of listed decisions that keeps the order of play, a round that closes
over two or more `ACTIVE` players closes over players who all acted on this street at or
after the last increase of the current bet. -/
theorem no_active_player_skipped (table : Table) (events : List DriverEvent) (event : DriverEvent)
    (before after : Tracked) (blinds : 0 < table.smallBlind ∧ table.smallBlind < table.bigBlind)
    (played : Runs.run trackedStep table.startTracked events = some before)
    (taken : trackedStep before event = some after)
    (listed : Runs.meets trackedStep (fun tracked => listedStep tracked.state)
      table.startTracked (events ++ [event]) = true)
    (keeps : Runs.meets trackedStep (fun tracked => keepsOrder tracked.state)
      table.startTracked (events ++ [event]) = true)
    (running : before.state.game.bettingRoundComplete = false)
    (closed : after.state.game.bettingRoundComplete = true)
    (two : 2 ≤ after.state.game.activePlayers.length) :
    ∀ seat, after.state.game.isActive seat = true → seat ∈ after.acted := by
  obtain ⟨listedBefore, listedNow⟩ := (Runs.meets_append played).mp listed
  obtain ⟨keepsBefore, keepsNow⟩ := (Runs.meets_append played).mp keeps
  have listedNow := ((Runs.meets_cons taken).mp listedNow).1
  have keepsNow := ((Runs.meets_cons taken).mp keepsNow).1
  have holds : Reached table before.state ∧ OnRecord before :=
    Runs.run_invariant (fun tracked => Reached table tracked.state ∧ OnRecord tracked)
      (fun first event second ⟨reached, record⟩ allowed stepped =>
        have ⟨one, other⟩ := Bool.and_eq_true_iff.mp allowed
        have ⟨_, driven, shape⟩ := Option.map_eq_some_iff.mp stepped
        ⟨shape ▸ reached.step driven, onRecord_step blinds reached record one other stepped⟩)
      ⟨table.reached_start, fun stage => by cases stage⟩
      (Runs.meets_and listedBefore keepsBefore) played
  obtain ⟨reached, record⟩ := holds
  obtain ⟨next, stepped, shape⟩ := Option.map_eq_some_iff.mp taken
  cases event with
  | newHand shuffle =>
      obtain ⟨_, _, button, hand⟩ := reached.opened stepped
      rw [← shape, show _ = false from hand.running] at closed
      cases closed
  | skip =>
      obtain ⟨stage, _, _, _, rfl⟩ := driverStep_skip stepped
      obtain ⟨seat, acts, _⟩ := PokerGame.another_active two 0
      rw [← shape] at closed acts
      rw [PokerGame.nobody_of_advance_closed (reached.inPlay stage).turn running closed seat] at acts
      cases acts
  | decide decision =>
      exact (decide_on_record blinds reached record listedNow keepsNow taken).2 closed two
  | nextPhase =>
      obtain ⟨_, _, complete, _⟩ := driverStep_nextPhase stepped
      rw [complete] at running
      cases running
  | showdown =>
      obtain ⟨_, _, result, returned, _⟩ := driverStep_showdown stepped
      obtain ⟨_, _, _, same, _, _⟩ := PokerGame.conductShowdown_seats returned
      rw [← shape, same, running] at closed
      cases closed

def threeHanded : Table where
  smallBlind := 10
  bigBlind := 20
  chips := List.replicate 3 100
  button := 2
  seats_ge := by decide
  seats_le := by decide
  chips_pos := by decide
  button_lt := by decide

def limpedToFlop : List DriverEvent :=
  [.newHand .unshuffled, .decide ⟨.call, 0⟩, .decide ⟨.call, 0⟩, .decide ⟨.check, 0⟩, .nextPhase]

/-- The first actor folds on the flop, and the flop is over before the other two have
acted on it. -/
theorem flop_closed_by_first_fold :
    ∃ before after, Runs.run trackedStep threeHanded.startTracked limpedToFlop = some before ∧
      trackedStep before (.decide ⟨.fold, 0⟩) = some after ∧
      Runs.meets trackedStep (fun tracked => listedStep tracked.state) threeHanded.startTracked
        (limpedToFlop ++ [.decide ⟨.fold, 0⟩]) = true ∧
      before.state.game.bettingRoundComplete = false ∧
      after.state.game.bettingRoundComplete = true ∧
      2 ≤ after.state.game.activePlayers.length ∧
      after.state.game.isActive 2 = true ∧ 2 ∉ after.acted :=
  ⟨_, _, rfl, rfl, rfl, rfl, rfl, by decide, rfl, by decide⟩

/-- Checked around, the flop closes over players who have all acted on it. -/
theorem no_active_player_skipped_checked_flop :
    ∃ before after,
      Runs.run trackedStep threeHanded.startTracked
        (limpedToFlop ++ [.decide ⟨.check, 0⟩, .decide ⟨.check, 0⟩]) = some before ∧
      trackedStep before (.decide ⟨.check, 0⟩) = some after ∧
      ∀ seat, after.state.game.isActive seat = true → seat ∈ after.acted :=
  ⟨_, _, rfl, rfl,
    no_active_player_skipped threeHanded
      (limpedToFlop ++ [.decide ⟨.check, 0⟩, .decide ⟨.check, 0⟩]) (.decide ⟨.check, 0⟩) _ _
      (by decide) rfl rfl rfl rfl rfl rfl (by decide)⟩

end Holdem
