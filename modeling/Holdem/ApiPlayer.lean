import Holdem.StateMessage
import Holdem.RandomPlayer
import Holdem.AnswerRoundTrip

set_option autoImplicit false

/- A player whose decisions come from an agent behind an API server. -/
namespace Holdem

/-- What comes of creating a session. A `RequestException` is logged, and so is any status. -/
inductive SessionOutcome
  | through
  | raised
  | never

/-- What comes of the worker that asks `/run`. The executor waits for it also when the player
has given it up after 40 seconds: then it is `late`, or `never` there. -/
inductive RunOutcome
  | never
  | late
  | raised
  | response (statusCode : Nat) (body : List Char)

structure AgentServer where
  session : SessionOutcome
  run : List Char → RunOutcome

/-- `value[key]` for a text as key; `none` where it raises. -/
def fieldOf (key : String) : Json → Option Json
  | .dict entries => entries.lookup key.toList
  | _ => none

def firstOf : Json → Option Json
  | .list items => items.head?
  | .str text => text.head?.map fun char => .str [char]
  | _ => none

def lastOf : Json → Option Json
  | .list items => items.getLast?
  | .str text => text.getLast?.map fun char => .str [char]
  | _ => none

/-- `response.json()[-1]["content"]["parts"][0]["text"]`. -/
def replyText (float : List Char → Float64) (body : List Char) : Option Json :=
  ((((Json.loads float body).bind lastOf).bind (fieldOf "content")).bind (fieldOf "parts")).bind
    fun parts => (firstOf parts).bind (fieldOf "text")

def Action.ofText (text : List Char) : Action :=
  if text = "fold".toList then .fold
  else if text = "check".toList then .check
  else if text = "call".toList then .call
  else if text = "raise".toList then .raise
  else if text = "all_in".toList then .allIn
  else .unknown (String.ofList text)

def AgentDecision.decision (decided : AgentDecision) : Decision :=
  ⟨.ofText decided.action, decided.amount⟩

structure Decided where
  decision : Except PyError Decision
  lastDecisionReasoning : Json

namespace LLMApiPlayer

/-- `LLMApiPlayer.make_decision`, for a player with a number of chips, a server that is sent
the message, and the draws of the random player that stands in after an exception. `none`: it
does not return. -/
def makeDecision (py : PyText) (spell : Float64 → List Char) (float : List Char → Float64)
    (server : AgentServer) (chips : Int) (lastReasoning : Json) (gameState : GameState)
    (draws : Draws) : Option Decided :=
  let standIn := RandomPlayer.makeDecision py.alphabet chips gameState draws
  match server.session with
  | .never => none
  | .raised => some ⟨standIn, lastReasoning⟩
  | .through =>
      match server.run (gameState.message spell) with
      | .never => none
      | .late => some ⟨.ok ⟨.fold, 0⟩, strValue "40秒経過しても応答がないため、フォールドします"⟩
      | .raised => some ⟨standIn, lastReasoning⟩
      | .response statusCode body =>
          if statusCode ≠ 200 then some ⟨.ok ⟨.fold, 0⟩, lastReasoning⟩
          else
            match replyText float body with
            | some (.str text) =>
                let answered := py.parseLlmResponse (Json.loads float) chips
                  (gameState.actions.map String.toList) (some lastReasoning) text
                let reasoning := answered.lastDecisionReasoning.getD lastReasoning
                match answered.result with
                | .ok decided => some ⟨.ok decided.decision, reasoning⟩
                | .error _ => some ⟨standIn, reasoning⟩
            -- What is no text cannot be searched, and raises `TypeError`.
            | _ => some ⟨standIn, lastReasoning⟩

end LLMApiPlayer

def AgentServer.Hangs (server : AgentServer) (message : List Char) : Prop :=
  server.session = .never ∨ server.session = .through ∧ server.run message = .never

/-- The decision comes out of the text that the server sent. -/
def SaidBy (py : PyText) (float : List Char → Float64) (outcome : RunOutcome) (chips : Int)
    (actions : List (List Char)) (decision : Decision) : Prop :=
  ∃ body text cut object decided, outcome = .response 200 body ∧
    replyText float body = some (.str text) ∧ py.jsonStr text = some cut ∧
    Json.loads float cut = some object ∧
    (py.readDecision chips actions object).1 = .ok decided ∧ decision = decided.decision

theorem parseLlmResponse_cases {py : PyText} {loads : List Char → Option Json} {chips : Int}
    {actions : List (List Char)} {lastReasoning : Option Json} {response : List Char}
    {decided : AgentDecision}
    (returned : (py.parseLlmResponse loads chips actions lastReasoning response).result =
      .ok decided) :
    decided = PyText.foldDecision ∨ ∃ cut object, py.jsonStr response = some cut ∧
      loads cut = some object ∧ (py.readDecision chips actions object).1 = .ok decided := by
  unfold PyText.parseLlmResponse at returned
  cases cut : py.jsonStr response with
  | none =>
      rw [cut] at returned
      exact Or.inl (Except.ok.inj returned).symm
  | some text =>
      rw [cut] at returned
      dsimp only at returned
      cases loaded : loads text with
      | none =>
          rw [loaded] at returned
          exact Or.inl (Except.ok.inj returned).symm
      | some object =>
          rw [loaded] at returned
          dsimp only at returned
          cases read : (py.readDecision chips actions object).1 with
          | ok found =>
              rw [read] at returned
              cases returned
              exact Or.inr ⟨text, object, rfl, loaded, read⟩
          | error raised =>
              rw [read] at returned
              dsimp only at returned
              split at returned
              · exact Or.inl (Except.ok.inj returned).symm
              · cases returned

/-- At every turn of a run the player decides unless the server hangs: what the server's text
says, or something listed, or to fold. -/
theorem api_player_decides (table : Table) (events : List DriverEvent) (state : DriverState)
    (player : Player) (py : PyText) (spell : Float64 → List Char)
    (float : List Char → Float64) (server : AgentServer) (lastReasoning : Json)
    (draws : Draws) (blind : 0 < table.bigBlind)
    (played : Runs.run driverStep table.start events = some state)
    (stage : state.stage = .inHand) (turn : state.game.Turn player) :
    ∃ view, state.game.getLlmGameState player.id = .ok view ∧
      let returned := LLMApiPlayer.makeDecision py spell float server player.chips lastReasoning
        view draws
      (returned = none ↔ server.Hangs (view.message spell)) ∧
      ∀ decided, returned = some decided → ∃ decision, decided.decision = .ok decision ∧
        (decision = ⟨.fold, 0⟩ ∨ state.game.isListed player.id decision = true ∨
          SaidBy py float (server.run (view.message spell)) player.chips
            (view.actions.map String.toList) decision) := by
  have reached := table.reached played
  have big : 0 < state.game.bigBlind := reached.seated.blinds.2 ▸ blind
  obtain ⟨view, seen, lists⟩ := PokerGame.getLlmGameState_turn reached.seated turn
  obtain ⟨drawn, standIn, listed⟩ := @PokerGame.makeDecision_listed table state.game player
    py.alphabet reached.seated turn big (reached.inPlay stage).bet view lists draws
  refine ⟨view, seen, ?_⟩
  unfold LLMApiPlayer.makeDecision AgentServer.Hangs
  rw [standIn]
  cases server.session with
  | never => simp
  | raised => simp [listed]
  | through =>
      cases server.run (view.message spell) with
      | never => simp
      | late => simp
      | raised => simp [listed]
      | response statusCode body =>
          dsimp only
          split
          · simp
          · rename_i fine
            have status : statusCode = 200 := not_not.mp fine
            subst status
            split
            · rename_i text replied
              split
              · rename_i answer returned
                refine ⟨by simp, fun decided same => ?_⟩
                cases same
                refine ⟨answer.decision, rfl, ?_⟩
                rcases parseLlmResponse_cases returned with rfl | ⟨cut, object, found, loaded, read⟩
                · exact Or.inl rfl
                · exact Or.inr (Or.inr ⟨body, text, cut, object, answer, rfl, replied, found,
                    loaded, read, rfl⟩)
              · simp [listed]
            · simp [listed]

/-- A server that is overloaded makes the player fold. -/
theorem api_player_decides_overloaded :
    ∃ state player view, Runs.run driverStep headsUp.start [.newHand .unshuffled] = some state ∧
      state.game.Turn player ∧ state.game.getLlmGameState player.id = .ok view ∧
      LLMApiPlayer.makeDecision .ascii (fun _ => []) (fun _ => .nan)
        ⟨.through, fun _ => .response 503 []⟩ player.chips .null view ⟨fun _ => 0, 0⟩ =
          some ⟨.ok ⟨.fold, 0⟩, .null⟩ := by
  have reached : ∃ state player,
      Runs.run driverStep headsUp.start [.newHand .unshuffled] = some state ∧
      state.stage = .inHand ∧ state.game.Turn player := ⟨_, _, rfl, rfl, ⟨rfl, rfl⟩⟩
  obtain ⟨state, player, played, stage, turn⟩ := reached
  obtain ⟨view, seen, _, decides⟩ := api_player_decides headsUp [.newHand .unshuffled]
    state player .ascii (fun _ => []) (fun _ => .nan) ⟨.through, fun _ => .response 503 []⟩ .null
    ⟨fun _ => 0, 0⟩ (by decide) played stage turn
  obtain ⟨decision, folded, _⟩ := decides ⟨.ok ⟨.fold, 0⟩, .null⟩ rfl
  cases folded
  exact ⟨state, player, view, played, turn, seen, rfl⟩

end Holdem
