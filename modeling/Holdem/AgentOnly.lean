import Holdem.ActionRows
import Holdem.CpuGame
import Holdem.Elimination
import Holdem.HistoryRange
import Holdem.Lib.Json

set_option autoImplicit false

namespace Holdem

structure PlayerStats where
  handsWon : Nat := 0
  totalWinnings : Int := 0
  handsPlayed : Nat := 0
  agentType : String
deriving DecidableEq, Repr

/-- The exceptions that end `run_agent_only_mode`. -/
inductive AgentFault
  | game (raised : PyError)
  | keyError (name : String)

/-- `Agent{i}`: the name of an agent, whose id is its seat. -/
def agentName (playerId : Int) : String := "Agent" ++ toString playerId

/-- `player_stats[name][...] = ...`. -/
def updateStats (stats : List (String × PlayerStats)) (name : String)
    (write : PlayerStats → PlayerStats) : Except AgentFault (List (String × PlayerStats)) :=
  match stats.lookup name with
  | none => .error (.keyError name)
  | some entry => .ok (Dict.set stats name (write entry))

/-- The loop before a hand: it counts for everybody who is not `BUSTED`. -/
def countHand (handCount : Nat) :
    List Player → List (String × PlayerStats) → Except AgentFault (List (String × PlayerStats))
  | [], stats => .ok stats
  | player :: rest, stats =>
      if player.status = .busted then countHand handCount rest stats
      else
        match updateStats stats (agentName player.id) fun entry =>
            { entry with handsPlayed := handCount } with
        | .error fault => .error fault
        | .ok stats => countHand handCount rest stats

def countWins (game : PokerGame) :
    List Award → List (String × PlayerStats) → Except AgentFault (List (String × PlayerStats))
  | [], stats => .ok stats
  | award :: rest, stats =>
      match game.getPlayer award.playerId with
      | none => countWins game rest stats
      | some winner =>
          match updateStats stats (agentName winner.id) fun entry =>
              { entry with
                handsWon := entry.handsWon + 1
                totalWinnings := entry.totalWinnings + award.winnings } with
          | .error fault => .error fault
          | .ok stats => countWins game rest stats

/-- `hand_count` and `player_stats` beside the state of the game. -/
structure AgentState where
  handCount : Nat
  stats : List (String × PlayerStats)
  driver : DriverState

/-- What a pass of the loop meets: the order of a deck, and the decision of the agent whose
turn it is, with the `last_decision_reasoning` behind it. -/
structure AgentChance where
  shuffle : Shuffle
  decision : Decision
  reasoning : Json

/-- The line that prints `reasoning[:80]`, if there is a reasoning. -/
def printReasoning (reasoning : Json) : Except AgentFault Unit :=
  if reasoning.truthy then
    match reasoning with
    | .str _ => .ok ()
    | .list _ => .ok ()
    | .null => .error (.game (.typeError "'NoneType' object is not subscriptable"))
    | .bool _ => .error (.game (.typeError "'bool' object is not subscriptable"))
    | .int _ => .error (.game (.typeError "'int' object is not subscriptable"))
    | .float _ => .error (.game (.typeError "'float' object is not subscriptable"))
    | .dict _ => .error (.keyError "slice(None, 80, None)")
  else .ok ()

def agentTurn (chance : AgentChance) (game : PokerGame) : Except AgentFault PokerGame :=
  match game.players[game.currentPlayerIndex]? with
  | none => .error (.game (.indexError "list index out of range"))
  | some player =>
      if player.status ≠ .active then .ok game.advanceToNextPlayer
      else
        match game.getLlmGameState player.id with
        | .error raised => .error (.game raised)
        | .ok _ =>
            match (game.decideOrFold player.id chance.decision).stored with
            | .error raised => .error (.game raised)
            | .ok next => (printReasoning chance.reasoning).map fun _ => next

/-- One pass inside a hand, with the statistics behind its showdown. -/
def agentHand (chance : AgentChance) (game : PokerGame) (stats : List (String × PlayerStats)) :
    Except AgentFault (List (String × PlayerStats) × DriverState) :=
  if game.currentPhase.playing then
    if game.bettingRoundComplete then
      match game.advanceToNextPhase with
      | .error raised => .error (.game raised)
      | .ok moved => .ok (stats, ⟨if moved.1 then .inHand else .betweenHands, moved.2⟩)
    else
      match agentTurn chance game with
      | .error fault => .error fault
      | .ok next => .ok (stats, ⟨.inHand, next⟩)
  else if game.currentPhase = .showdown then
    match game.conductShowdown with
    | .error raised => .error (.game raised)
    | .ok settled =>
        match settled.1.stored with
        | .error raised => .error (.game raised)
        | .ok game =>
            (countWins game settled.2.results stats).map fun stats =>
              (stats, ⟨.betweenHands, game⟩)
  else .ok (stats, ⟨.betweenHands, game⟩)

/-- One pass of the loops of `run_agent_only_mode`, with what it meets at its time. -/
def agentPass (maxHands : Nat) (chance : Nat → AgentChance) (time : Nat) (state : AgentState) :
    Loops.Pass AgentState AgentFault :=
  match state.driver.stage with
  | .stopped => .done state
  | .betweenHands =>
      if state.driver.game.isGameOver || decide (maxHands ≤ state.handCount) then .done state
      else
        match countHand (state.handCount + 1) state.driver.game.players state.stats with
        | .error fault => .raised fault
        | .ok stats =>
            match state.driver.game.startNewHand (chance time).shuffle with
            | .error raised => .raised (.game raised)
            | .ok opened =>
                match opened.stored with
                | .error raised => .raised (.game raised)
                | .ok opened =>
                    .next ⟨state.handCount + 1, stats,
                      ⟨if opened.currentPhase = .finished then .stopped else .inHand, opened⟩⟩
  | .inHand =>
      match agentHand (chance time) state.driver.game state.stats with
      | .error fault => .raised fault
      | .ok next => .next ⟨state.handCount, next.1, next.2⟩

def Table.freshStats (table : Table) (agentType : Int → String) : List (String × PlayerStats) :=
  Dict.ofPairs (table.game.players.map fun player =>
    (agentName player.id, { agentType := agentType player.id }))

def Table.startAgents (table : Table) (agentType : Int → String) : AgentState :=
  ⟨0, table.freshStats agentType, table.start⟩

/-- The action is accepted, and the amount recorded for it is too large to be stored. -/
def PokerGame.oversized (game : PokerGame) (player : Player) (decision : Decision) : Bool :=
  match game.performAction player player.id decision.action decision.amount with
  | none => false
  | some done => !decide (FitsColumn (recordedAmount done decision.action decision.amount))

/-- The loop raises at the turn of this agent. -/
def PokerGame.trips (game : PokerGame) (chance : AgentChance) : Bool :=
  game.currentPhase.playing && !game.bettingRoundComplete &&
    match game.players[game.currentPlayerIndex]? with
    | none => false
    | some player =>
        player.status == .active &&
          (game.oversized player chance.decision || !(printReasoning chance.reasoning).isOk)

/-! ### The entries of the statistics -/

theorem agentName_injective : Function.Injective agentName := by
  intro first second same
  have spelt := congrArg String.toList same
  unfold agentName at spelt
  rw [String.toList_append, String.toList_append] at spelt
  exact Numeral.toString_inj (List.append_cancel_left spelt)

def Entered (stats : List (String × PlayerStats)) (players : List Player) : Prop :=
  ∀ player ∈ players, (stats.lookup (agentName player.id)).isSome

theorem updateStats_ok {stats : List (String × PlayerStats)} {name : String}
    (write : PlayerStats → PlayerStats) (present : (stats.lookup name).isSome) :
    ∃ after, updateStats stats name write = .ok after ∧
      ∀ other, after.lookup other =
        if name = other then (stats.lookup other).map write else stats.lookup other := by
  obtain ⟨entry, found⟩ := Option.isSome_iff_exists.mp present
  refine ⟨Dict.set stats name (write entry), ?_, ?_⟩
  · unfold updateStats
    rw [found]
  · intro other
    rw [Dict.lookup_set]
    split
    · rename_i same
      subst same
      rw [found]
      rfl
    · rfl

theorem countHand_spec {players : List Player} {stats : List (String × PlayerStats)}
    (handCount : Nat) (entered : Entered stats players) :
    ∃ after, countHand handCount players stats = .ok after ∧
      ∀ playerId : Int, after.lookup (agentName playerId) =
        (stats.lookup (agentName playerId)).map fun entry =>
          if players.any fun player => player.id == playerId && player.status != .busted then
            { entry with handsPlayed := handCount }
          else entry := by
  induction players generalizing stats with
  | nil =>
      refine ⟨stats, rfl, fun playerId => ?_⟩
      simp
  | cons player rest ih =>
      obtain ⟨here, later⟩ := List.forall_mem_cons.mp entered
      unfold countHand
      by_cases busted : player.status = .busted
      · obtain ⟨after, counted, entries⟩ := ih later
        rw [if_pos busted]
        refine ⟨after, counted, fun playerId => ?_⟩
        rw [entries, List.any_cons]
        simp [busted]
      · obtain ⟨middle, written, rewritten⟩ :=
          updateStats_ok (fun entry => { entry with handsPlayed := handCount }) here
        have still : Entered middle rest := by
          intro other member
          rw [rewritten]
          split
          · rw [Option.isSome_map]
            exact later other member
          · exact later other member
        obtain ⟨after, counted, entries⟩ := ih still
        rw [if_neg busted, written]
        refine ⟨after, counted, fun playerId => ?_⟩
        rw [entries, rewritten, List.any_cons]
        by_cases own : player.id = playerId
        · have spare : (player.status != .busted) = true := by simpa using busted
          rw [if_pos (congrArg agentName own), Option.map_map]
          congr 1
          funext entry
          simp [own, spare]
        · rw [if_neg (fun same => own (agentName_injective same))]
          simp [own]

theorem countWins_spec {game : PokerGame} (awards : List Award)
    {stats : List (String × PlayerStats)} (entered : Entered stats game.players) :
    ∃ after, countWins game awards stats = .ok after ∧
      ∀ playerId : Int, (game.getPlayer playerId).isSome →
        after.lookup (agentName playerId) =
          (stats.lookup (agentName playerId)).map fun entry =>
            let own := awards.filter fun award => award.playerId == playerId
            { entry with
              handsWon := entry.handsWon + own.length
              totalWinnings := entry.totalWinnings + (own.map Award.winnings).sum } := by
  induction awards generalizing stats with
  | nil =>
      refine ⟨stats, rfl, fun playerId _ => ?_⟩
      simp
  | cons award rest ih =>
      unfold countWins
      cases found : game.getPlayer award.playerId with
      | none =>
          obtain ⟨after, counted, entries⟩ := ih entered
          refine ⟨after, counted, fun playerId seated => ?_⟩
          have apart : (award.playerId == playerId) = false := by
            rw [beq_eq_false_iff_ne]
            rintro rfl
            rw [found] at seated
            cases seated
          rw [entries playerId seated, List.filter_cons, apart]
          rfl
      | some winner =>
          have own : winner.id = award.playerId := by
            simpa using List.find?_some found
          have inside : winner ∈ game.players := List.mem_of_find?_eq_some found
          obtain ⟨middle, written, rewritten⟩ := updateStats_ok (fun entry =>
            { entry with
              handsWon := entry.handsWon + 1
              totalWinnings := entry.totalWinnings + award.winnings }) (entered winner inside)
          have still : Entered middle game.players := by
            intro other member
            rw [rewritten]
            split
            · rw [Option.isSome_map]
              exact entered other member
            · exact entered other member
          obtain ⟨after, counted, entries⟩ := ih still
          dsimp only
          rw [written]
          refine ⟨after, counted, fun playerId seated => ?_⟩
          rw [entries playerId seated, rewritten, List.filter_cons]
          by_cases same : award.playerId = playerId
          · rw [if_pos (by rw [own, same]), Option.map_map, same]
            congr 1
            funext entry
            simp [Int.add_assoc]
            omega
          · rw [if_neg (fun equal => same (own ▸ agentName_injective equal))]
            simp [same]

end Holdem
