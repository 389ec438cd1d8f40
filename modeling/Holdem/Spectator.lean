import Holdem.ActionTimeline
import Holdem.StateMessage

set_option autoImplicit false

/- The state server writes the table as a JSON text, and the viewer shows what it reads there. -/
namespace Holdem

/-! ### The state server -/

/-- What an `LLMApiPlayer` has besides. -/
structure ApiLabel where
  appName : List Char
  lastDecisionReasoning : List Char

/-- The attributes of a player object that the table does not read. -/
structure SeatLabel where
  name : List Char
  agent : Option ApiLabel

/-- `_display_name_for_player`, with `str.title`. -/
def SeatLabel.displayName (py : PyText) (title : List Char → List Char) (label : SeatLabel) :
    List Char :=
  match label.agent with
  | none => label.name
  | some agent =>
      if agent.appName.isEmpty then label.name
      else
        let cleaned := Text.strip py.space
          (agent.appName.map fun char => if char = '_' then ' ' else char)
        if cleaned.isEmpty then label.name else title cleaned

/-- The names and the texts of the players, and what Python's `str` methods make of them. -/
structure Labels where
  py : PyText
  title : List Char → List Char
  of : Int → SeatLabel

namespace Labels

variable (labels : Labels)

def displayName (playerId : Int) : List Char :=
  (labels.of playerId).displayName labels.py labels.title

def appName (playerId : Int) : Json :=
  match (labels.of playerId).agent with
  | none => .null
  | some agent => .str agent.appName

def playerEntry (player : Player) : Json :=
  .dict [("id".toList, .int player.id), ("name".toList, .str (labels.of player.id).name),
    ("display_name".toList, .str (labels.displayName player.id)),
    ("app_name".toList, labels.appName player.id), ("chips".toList, .int player.chips),
    ("current_bet".toList, .int player.currentBet),
    ("total_bet_this_hand".toList, .int player.totalBetThisHand),
    ("status".toList, strValue player.status.value),
    ("is_dealer".toList, .bool player.isDealer),
    ("is_small_blind".toList, .bool player.isSmallBlind),
    ("is_big_blind".toList, .bool player.isBigBlind),
    ("hole_cards".toList, .list (player.holeCards.map fun card => strValue card.str))]

def agentEntry (game : PokerGame) (player : Player) : Option Json :=
  (labels.of player.id).agent.map fun agent =>
    let latest := latestActionForPlayer labels.py.alphabet game.actionHistory player.id
    .dict [("id".toList, .int player.id), ("name".toList, .str (labels.of player.id).name),
      ("display_name".toList, .str (labels.displayName player.id)),
      ("app_name".toList, .str agent.appName), ("action".toList, strValue latest.1),
      ("amount".toList, .int latest.2), ("reasoning".toList, .str agent.lastDecisionReasoning)]

end Labels

def Award.entry (award : Award) : Json :=
  .dict [("player_id".toList, .int award.playerId), ("hand".toList, strValue award.hand),
    ("winnings".toList, .int award.winnings)]

def ShownHand.entry (shown : ShownHand) : Json :=
  .dict [("player_id".toList, .int shown.playerId), ("hand".toList, strValue shown.hand),
    ("cards".toList, .list (shown.cards.map strValue))]

def ShowdownResult.entry (result : ShowdownResult) : Json :=
  .dict ([("winners".toList, .list (result.winners.map .int)),
    ("results".toList, .list (result.results.map Award.entry))] ++
    match result.allHands with
    | none => []
    | some hands => [("all_hands".toList, .list (hands.map ShownHand.entry))])

/-- `_build_viewer_state`, with the game that is registered. -/
def buildViewerState (labels : Labels) : Option PokerGame → Json
  | none => .dict [("ready".toList, .bool false)]
  | some game =>
      .dict [("ready".toList, .bool true), ("hand_number".toList, .int game.handNumber),
        ("phase".toList, strValue game.currentPhase.value), ("pot".toList, .int game.pot),
        ("current_bet".toList, .int game.currentBet),
        ("dealer_button".toList, .int game.dealerButton),
        ("current_turn".toList, .int game.currentPlayerIndex),
        ("community_cards".toList, .list (game.communityCards.map fun card => strValue card.str)),
        ("players".toList, .list (game.players.map labels.playerEntry)),
        ("action_history".toList, .list (game.actionHistory.map strValue)),
        ("llm_api_agents".toList, .list (game.players.filterMap (labels.agentEntry game))),
        ("showdown_results".toList, match game.lastShowdownResults with
          | none => .null
          | some result => result.entry)]

/-- `_StateHandler.do_GET`: the status and the body. -/
def doGet (labels : Labels) (spell : Float64 → List Char) (path : List Char)
    (current : Option PokerGame) : Nat × List Char :=
  if "/state".toList.isPrefixOf path then
    (200, Json.dumps ⟨none, true, spell⟩ 0 (buildViewerState labels current))
  else (404, [])

/-! ### The viewer -/

/-- One turn of `_poll_loop`: the state that the viewer keeps, from the status and the body of
the response, if there is one. -/
def polled (float : List Char → Float64) (response : Option (Nat × List Char)) : Json :=
  let waiting : Json := .dict [("ready".toList, .bool false)]
  match response with
  | none => waiting
  | some (status, body) => if status < 400 then (Json.loads float body).getD waiting else waiting

end Holdem

namespace Json

/-- `dictionary.get(key, fallback)`. -/
def get (dictionary : Json) (key : String) (fallback : Json) : Json :=
  match dictionary with
  | .dict entries => (entries.lookup key.toList).getD fallback
  | _ => fallback

/-- `first or second`. -/
def orElse (first second : Json) : Json := if first.truthy then first else second

def elements : Json → List Json
  | .list items => items
  | _ => []

def characters : Json → List Char
  | .str text => text
  | _ => []

def number : Json → Int
  | .int number => number
  | _ => 0

end Json

namespace Holdem

/-- A seat on the viewer's table, face up. Colours follow from the status. -/
structure SeatShown where
  cards : List (List Char)
  name : List Char
  isDealer : Bool
  isSmallBlind : Bool
  isBigBlind : Bool
  status : List Char
  chips : Int
  bet : Int
deriving DecidableEq

/-- The card of an agent: the badges of its latest action and its reasoning. -/
structure AgentCard where
  name : List Char
  badge : Option String
  amount : Option Int
  reasoning : List Char
deriving DecidableEq

/-- The overlay of a showdown: the board, the hands with their names and cards, and the
winners with their names and winnings. -/
structure ShowdownShown where
  community : List (List Char)
  hands : List (List Char × List (List Char) × List Char)
  winners : List (List Char × Int × List Char)
deriving DecidableEq

structure Screen where
  handNumber : Int
  phase : String
  community : List (List Char)
  pot : Int
  currentBet : Int
  seats : List SeatShown
  history : List (HistoryItem × Option (List Char))
  agents : List AgentCard
  showdown : Option ShowdownShown
deriving DecidableEq

def phaseName (phaseValue : List Char) : String :=
  ([("preflop", "プリフロップ"), ("flop", "フロップ"), ("turn", "ターン"), ("river", "リバー"),
      ("showdown", "ショーダウン"), ("finished", "終了")].lookup (String.ofList phaseValue)).getD
    "不明"

/-- `_get_player_name` on the state that the viewer keeps. -/
def playerName (state : Json) (playerId : Int) : List Char :=
  let fallback := (s!"Player {playerId}").toList
  match (state.get "players" (.list [])).elements.find? fun player =>
      (player.get "id" .null).number == playerId with
  | none => fallback
  | some player =>
      let name := (player.get "display_name" .null).orElse (player.get "name" .null)
      if name.truthy then name.characters else fallback

def seatShown (py : PyText) (seat : Nat) (player : Json) : SeatShown :=
  let holeCards := (player.get "hole_cards" (.list [])).elements
  let status := py.lower (player.get "status" (.str [])).characters
  let named := if status = "bust".toList ∨ status = "busted_out".toList then "busted".toList
    else status
  let bet := (player.get "current_bet" (.int 0)).number
  { cards := if holeCards.isEmpty then ["??".toList, "??".toList]
      else holeCards.map Json.characters
    name := ((player.get "display_name" .null).orElse
      (player.get "name" (.str (s!"P{seat}").toList))).characters
    isDealer := (player.get "is_dealer" .null).truthy
    isSmallBlind := (player.get "is_small_blind" .null).truthy
    isBigBlind := (player.get "is_big_blind" .null).truthy
    status := if named.isEmpty ∧ (player.get "chips" (.int 0)).number ≤ 0 then "busted".toList
      else named
    chips := (player.get "chips" (.int 0)).number
    bet := if bet > 0 then bet else 0 }

def actionBadge (action : List Char) : Option String :=
  [("fold", "FOLD"), ("check", "CHECK"), ("call", "CALL"), ("raise", "RAISE"),
    ("all_in", "ALL-IN"), ("all-in", "ALL-IN")].lookup (String.ofList action)

def createLlmAgentCard (py : PyText) (agent : Json) : AgentCard :=
  let amount := (agent.get "amount" (.int 0)).number
  let reasoning := Text.strip py.space (agent.get "reasoning" (.str [])).characters
  { name := (((agent.get "display_name" .null).orElse (agent.get "name" .null)).orElse
      (strValue "Agent")).characters
    badge := actionBadge (py.lower (agent.get "action" (.str [])).characters)
    amount := if amount > 0 then some amount else none
    reasoning := if reasoning.isEmpty then "(理由なし)".toList else reasoning }

def showdownShown (state results : Json) : ShowdownShown :=
  { community := (state.get "community_cards" (.list [])).elements.map Json.characters
    hands := (results.get "all_hands" (.list [])).elements.map fun hand =>
      (playerName state (hand.get "player_id" (.int (-1))).number,
        (hand.get "cards" (.list [])).elements.map Json.characters,
        (hand.get "hand" (.str [])).characters)
    winners := (results.get "results" (.list [])).elements.map fun result =>
      (playerName state (result.get "player_id" (.int (-1))).number,
        (result.get "winnings" (.int 0)).number, (result.get "hand" (.str [])).characters) }

/-- `update_display`; `none` while the viewer waits for a game. -/
def updateDisplay (py : PyText) (state : Json) : Option Screen :=
  if (state.get "ready" .null).truthy then
    let results := state.get "showdown_results" .null
    some
      { handNumber := (state.get "hand_number" (.int 0)).number
        phase := phaseName (state.get "phase" (.str [])).characters
        community := (state.get "community_cards" (.list [])).elements.map Json.characters
        pot := (state.get "pot" (.int 0)).number
        currentBet := (state.get "current_bet" (.int 0)).number
        seats := (state.get "players" (.list [])).elements.mapIdx (seatShown py)
        history := (state.get "action_history" (.list [])).elements.reverse.map fun line =>
          let item := py.createActionHistoryItem line.characters
          (item, item.pid.map (playerName state))
        agents := (state.get "llm_api_agents" (.list [])).elements.map (createLlmAgentCard py)
        showdown := if results.truthy then some (showdownShown state results) else none }
  else none

/-! ### What there is to see -/

namespace Labels

variable (labels : Labels)

def seatName (playerId : Int) : List Char :=
  if (labels.displayName playerId).isEmpty then (labels.of playerId).name
  else labels.displayName playerId

def nameAt (game : PokerGame) (playerId : Int) : List Char :=
  if (game.getPlayer playerId).isNone ∨ (labels.seatName playerId).isEmpty then
    (s!"Player {playerId}").toList
  else labels.seatName playerId

def seatFace (player : Player) : SeatShown where
  cards := if player.holeCards.isEmpty then ["??".toList, "??".toList]
    else player.holeCards.map fun card => card.str.toList
  name := labels.seatName player.id
  isDealer := player.isDealer
  isSmallBlind := player.isSmallBlind
  isBigBlind := player.isBigBlind
  status := player.status.value.toList
  chips := player.chips
  bet := player.currentBet

end Labels

/-- The badge of an accepted action. -/
def Acted.badge (acted : Acted) : Option String :=
  match acted.action with
  | .fold => some "FOLD"
  | .check => some "CHECK"
  | .call => some "CALL"
  | .raise => some "RAISE"
  | .allIn => some "ALL-IN"
  | .unknown _ => none

namespace Labels

variable (labels : Labels)

/-- The card of an agent whose last accepted action is this one. -/
def agentFace (playerId : Int) (last : Option Acted) (agent : ApiLabel) : AgentCard :=
  let reasoning := Text.strip labels.py.space agent.lastDecisionReasoning
  { name := if (labels.seatName playerId).isEmpty then "Agent".toList else labels.seatName playerId
    badge := last.bind Acted.badge
    amount := (last.map Acted.amount).filter (0 < ·)
    reasoning := if reasoning.isEmpty then "(理由なし)".toList else reasoning }

/-- A showdown as the game keeps it. -/
def showdownFace (game : PokerGame) (result : ShowdownResult) : ShowdownShown where
  community := game.communityCards.map fun card => card.str.toList
  hands := (result.allHands.getD []).map fun shown =>
    (labels.nameAt game shown.playerId, shown.cards.map String.toList, shown.hand.toList)
  winners := result.results.map fun award =>
    (labels.nameAt game award.playerId, award.winnings, award.hand.toList)

/-- The table as a spectator is to see it, told from the game, what happened at it and the
actions accepted in it. -/
def spectacle (game : PokerGame) (log : List HistoryItem) (acts : List Acted) : Screen where
  handNumber := game.handNumber
  phase := phaseName game.currentPhase.value.toList
  community := game.communityCards.map fun card => card.str.toList
  pot := game.pot
  currentBet := game.currentBet
  seats := game.players.map labels.seatFace
  history := log.reverse.map fun item => (item, item.pid.map (labels.nameAt game))
  agents := game.players.filterMap fun player =>
    (labels.of player.id).agent.map
      (labels.agentFace player.id (Acted.latest acts player.id))
  showdown := game.lastShowdownResults.map (labels.showdownFace game)

end Labels

/-! ### The viewer reads the state back -/

section Reading

variable {labels : Labels} {game : PokerGame}

theorem characters_strValue (texts : List String) :
    (texts.map strValue).map Json.characters = texts.map String.toList := by
  rw [List.map_map]
  rfl

theorem cards_characters (cards : List Card) :
    (cards.map fun card => strValue card.str).map Json.characters =
      cards.map fun card => card.str.toList := by
  rw [List.map_map]
  rfl

theorem cards_plain (cards : List Card) :
    Json.PlainItems (cards.map fun card => .str card.str.toList) := by
  have mapped : (cards.map fun card => Json.str card.str.toList) =
      (cards.map Card.str).map strValue := by
    rw [List.map_map]
    rfl
  rw [mapped]
  exact plain_strings _

theorem playerEntry_plain (player : Player) : (labels.playerEntry player).Plain := by
  have app : (labels.appName player.id).Plain := by
    unfold Labels.appName
    split <;> trivial
  simp only [Labels.playerEntry, strValue, Json.Plain, Json.PlainMembers, cards_plain, app,
    and_true, List.map_cons, List.map_nil]
  decide

theorem agentEntry_plain {player : Player} {entry : Json}
    (agent : labels.agentEntry game player = some entry) : entry.Plain := by
  obtain ⟨label, _, rfl⟩ := Option.map_eq_some_iff.mp agent
  simp only [strValue, Json.Plain, Json.PlainMembers, and_true, List.map_cons, List.map_nil]
  decide

theorem showdown_plain (result : ShowdownResult) : result.entry.Plain := by
  have winners : Json.PlainItems (result.winners.map .int) := by
    rw [Json.plainItems_iff]
    intro item member
    obtain ⟨winner, _, rfl⟩ := List.mem_map.mp member
    trivial
  have awards : Json.PlainItems (result.results.map Award.entry) := by
    rw [Json.plainItems_iff]
    intro item member
    obtain ⟨award, _, rfl⟩ := List.mem_map.mp member
    simp only [Award.entry, strValue, Json.Plain, Json.PlainMembers, and_true, List.map_cons,
      List.map_nil]
    decide
  have hands : ∀ shown : List ShownHand, Json.PlainItems (shown.map ShownHand.entry) := by
    intro shown
    rw [Json.plainItems_iff]
    intro item member
    obtain ⟨hand, _, rfl⟩ := List.mem_map.mp member
    simp only [ShownHand.entry, strValue, Json.Plain, Json.PlainMembers, plain_strings, and_true,
      List.map_cons, List.map_nil]
    decide
  unfold ShowdownResult.entry
  split
  · simp only [Json.Plain, Json.PlainMembers, winners, awards, and_true, List.append_nil,
      List.map_cons, List.map_nil]
    decide
  · simp only [Json.Plain, Json.PlainMembers, winners, awards, hands, and_true, List.map_cons,
      List.map_nil, List.cons_append, List.nil_append]
    decide

theorem buildViewerState_plain (current : Option PokerGame) :
    (buildViewerState labels current).Plain := by
  cases current with
  | none =>
      simp only [buildViewerState, Json.Plain, Json.PlainMembers, and_true, List.map_cons,
        List.map_nil]
      decide
  | some game =>
      have players : Json.PlainItems (game.players.map labels.playerEntry) := by
        rw [Json.plainItems_iff]
        intro item member
        obtain ⟨player, _, rfl⟩ := List.mem_map.mp member
        exact playerEntry_plain player
      have agents : Json.PlainItems (game.players.filterMap (labels.agentEntry game)) := by
        rw [Json.plainItems_iff]
        intro item member
        obtain ⟨player, _, entry⟩ := List.mem_filterMap.mp member
        exact agentEntry_plain entry
      have showdown : Json.Plain (match game.lastShowdownResults with
          | none => .null
          | some result => result.entry) := by
        split
        · trivial
        · exact showdown_plain _
      simp only [buildViewerState, strValue, Json.Plain, Json.PlainMembers, cards_plain, players,
        agents, plain_strings, showdown, and_true, List.map_cons, List.map_nil]
      decide

theorem orElse_name (playerId : Int) :
    ((Json.str (labels.displayName playerId)).orElse (.str (labels.of playerId).name)) =
      .str (labels.seatName playerId) := by
  unfold Json.orElse Labels.seatName Json.truthy
  cases labels.displayName playerId <;> rfl

theorem playerName_state (playerId : Int) :
    playerName (buildViewerState labels (some game)) playerId = labels.nameAt game playerId := by
  have listed : ((buildViewerState labels (some game)).get "players" (.list [])).elements =
      game.players.map labels.playerEntry := rfl
  have found : (game.players.map labels.playerEntry).find? (fun player =>
      (player.get "id" .null).number == playerId) =
        (game.getPlayer playerId).map labels.playerEntry := by
    rw [List.find?_map]
    rfl
  unfold playerName Labels.nameAt
  rw [listed, found]
  cases here : game.getPlayer playerId with
  | none => rfl
  | some player =>
      have same : player.id = playerId := by
        have named := List.find?_some here
        exact beq_iff_eq.mp named
      have name : ((labels.playerEntry player).get "display_name" .null).orElse
          ((labels.playerEntry player).get "name" .null) = .str (labels.seatName playerId) := by
        rw [← same]
        exact orElse_name player.id
      rw [Option.map_some]
      dsimp only
      rw [name]
      cases labels.seatName playerId <;> rfl

theorem seatShown_entry (seat : Nat) {player : Player} (bet : 0 ≤ player.currentBet) :
    seatShown labels.py seat (labels.playerEntry player) = labels.seatFace player := by
  have cards : ((labels.playerEntry player).get "hole_cards" (.list [])).elements =
      player.holeCards.map fun card => strValue card.str := rfl
  have status : ((labels.playerEntry player).get "status" (.str [])).characters =
      player.status.value.toList := rfl
  have name : ((labels.playerEntry player).get "display_name" .null).orElse
      ((labels.playerEntry player).get "name" (.str (s!"P{seat}").toList)) =
        .str (labels.seatName player.id) := orElse_name player.id
  have chips : ((labels.playerEntry player).get "chips" (.int 0)).number = player.chips := rfl
  have current : ((labels.playerEntry player).get "current_bet" (.int 0)).number =
      player.currentBet := rfl
  have lower : ∀ status : PlayerStatus, ∀ char ∈ status.value.toList,
      char.val < 128 ∧ char.toLower = char := by
    intro status
    cases status <;> decide
  have normal : ∀ status : PlayerStatus, (if status.value.toList = "bust".toList ∨
      status.value.toList = "busted_out".toList then "busted".toList else status.value.toList) =
        status.value.toList ∧ status.value.toList.isEmpty = false := by
    intro status
    cases status <;> decide
  unfold seatShown Labels.seatFace
  rw [cards, status, lower_same labels.py (lower player.status), name, chips, current]
  dsimp only
  rw [(normal player.status).1, (normal player.status).2]
  congr 1
  · rw [List.isEmpty_map, cards_characters]
  · split
    · rfl
    · omega

/-- Actions that were accepted are of the five kinds. -/
theorem actedLog_known (requests : List Request) :
    ∀ acted ∈ game.actedLog requests, ∀ text, acted.action ≠ .unknown text := by
  have between : ∀ {table : PokerGame} {playerId : Int} {action : Action} {before after : Player}
      {acted : Acted}, table.actedBetween playerId action before after = some acted →
      ∀ text, acted.action ≠ .unknown text := by
    intro table playerId action before after acted told text
    unfold PokerGame.actedBetween at told
    split at told
    · cases told
      exact fun same => by cases same
    · cases told
      exact fun same => by cases same
    · split at told
      · cases told
        exact fun same => by cases same
      · cases told
        exact fun same => by cases same
    · cases told
      exact fun same => by cases same
    · cases told
      exact fun same => by cases same
    · cases told
  induction requests generalizing game with
  | nil => exact fun _ member => by cases member
  | cons request rest ih =>
      intro entry member
      rcases List.mem_append.mp member with here | later
      · have told := Option.mem_toList.mp here
        unfold PokerGame.acted at told
        split at told
        · dsimp only at told
          split at told
          · split at told
            · exact between told
            · cases told
          · cases told
        · cases told
      · exact ih entry later

/-- The card of an agent shows its last accepted action. -/
theorem agentCard_entry {player : Player} {label : ApiLabel} {last : Option Acted}
    (latest : latestActionForPlayer labels.py.alphabet game.actionHistory player.id =
      (last.map Acted.shown).getD ("", 0))
    (known : ∀ acted ∈ last, ∀ text, acted.action ≠ .unknown text)
    (agent : (labels.of player.id).agent = some label) :
    (labels.agentEntry game player).map (createLlmAgentCard labels.py) =
      some (labels.agentFace player.id last label) := by
  have badge : actionBadge (labels.py.lower ((last.map Acted.shown).getD ("", 0)).1.toList) =
      last.bind Acted.badge := by
    cases last with
    | none =>
        show actionBadge (labels.py.lower "".toList) = none
        rw [lower_same labels.py (by decide)]
        decide
    | some acted =>
        show actionBadge (labels.py.lower acted.action.text.toList) = acted.badge
        have known := known acted rfl
        unfold Acted.badge
        cases action : acted.action with
        | fold =>
            rw [lower_same labels.py (by decide)]
            decide
        | check =>
            rw [lower_same labels.py (by decide)]
            decide
        | call =>
            rw [lower_same labels.py (by decide)]
            decide
        | raise =>
            rw [lower_same labels.py (by decide)]
            decide
        | allIn =>
            rw [lower_same labels.py (by decide)]
            decide
        | unknown text => exact absurd action (known text)
  have amount : (if ((last.map Acted.shown).getD ("", 0)).2 > 0 then
      some ((last.map Acted.shown).getD ("", 0)).2 else none) =
        (last.map Acted.amount).filter (0 < ·) := by
    cases last with
    | none => rfl
    | some acted => simp [Acted.shown, Option.filter_some]
  have name : (((Json.str (labels.displayName player.id)).orElse
      (.str (labels.of player.id).name)).orElse (strValue "Agent")).characters =
        if (labels.seatName player.id).isEmpty then "Agent".toList
        else labels.seatName player.id := by
    rw [orElse_name]
    cases labels.seatName player.id <;> rfl
  unfold Labels.agentEntry Labels.agentFace
  rw [agent, latest, ← badge, ← amount, ← name]
  rfl

theorem showdownShown_entry (result : ShowdownResult) :
    showdownShown (buildViewerState labels (some game)) result.entry =
      labels.showdownFace game result := by
  have community : ((buildViewerState labels (some game)).get "community_cards"
      (.list [])).elements = game.communityCards.map fun card => strValue card.str := rfl
  have hands : (result.entry.get "all_hands" (.list [])).elements =
      (result.allHands.getD []).map ShownHand.entry := by
    unfold ShowdownResult.entry
    cases result.allHands <;> rfl
  have results : (result.entry.get "results" (.list [])).elements =
      result.results.map Award.entry := by
    unfold ShowdownResult.entry
    cases result.allHands <;> rfl
  have shown : ∀ hand : ShownHand,
      (playerName (buildViewerState labels (some game))
          (hand.entry.get "player_id" (.int (-1))).number,
        (hand.entry.get "cards" (.list [])).elements.map Json.characters,
        (hand.entry.get "hand" (.str [])).characters) =
      (labels.nameAt game hand.playerId, hand.cards.map String.toList, hand.hand.toList) := by
    intro hand
    rw [← playerName_state, ← characters_strValue]
    rfl
  have won : ∀ award : Award,
      (playerName (buildViewerState labels (some game))
          (award.entry.get "player_id" (.int (-1))).number,
        (award.entry.get "winnings" (.int 0)).number, (award.entry.get "hand" (.str [])).characters) =
      (labels.nameAt game award.playerId, award.winnings, award.hand.toList) := by
    intro award
    rw [← playerName_state]
    rfl
  unfold showdownShown Labels.showdownFace
  rw [community, hands, results, cards_characters, List.map_map, List.map_map]
  congr 1
  · exact List.map_congr_left fun hand _ => shown hand
  · exact List.map_congr_left fun award _ => won award

end Reading

/-- The state that the viewer keeps is the one that the server built. -/
theorem polled_state (labels : Labels) (spell : Float64 → List Char) (float : List Char → Float64)
    (rest : List Char) (current : Option PokerGame) :
    polled float (some (doGet labels spell ("/state".toList ++ rest) current)) =
      buildViewerState labels current := by
  have served : doGet labels spell ("/state".toList ++ rest) current =
      (200, Json.dumps ⟨none, true, spell⟩ 0 (buildViewerState labels current)) :=
    if_pos (List.isPrefixOf_iff_prefix.mpr (List.prefix_append _ rest))
  unfold polled
  rw [served]
  dsimp only
  rw [if_pos (by decide), Json.loads_dumps _ float (buildViewerState_plain current),
    Option.getD_some]

theorem Table.game_counts (table : Table) : Solvent table.game ∧ PokerGame.Counts table.game := by
  have stacked : ∀ player ∈ table.game.players, 0 ≤ player.chips ∧ player.currentBet = 0 := by
    intro player member
    obtain ⟨seat, inside, rfl⟩ := List.mem_mapIdx.mp member
    exact ⟨Int.le_of_lt (table.chips_pos _ (List.getElem_mem inside)), rfl⟩
  refine ⟨⟨?_, fun player member => (stacked player member).1, Int.le_refl 0, ?_⟩,
    ⟨fun player member => (stacked player member).1, ?_⟩⟩
  · unfold Table.game
    rw [List.length_mapIdx]
    exact table.seats_le
  · show GamePhase.cardsNeeded .preflop ≤ Deck.standard.length
    decide
  · intro player member
    rw [(stacked player member).2]

theorem PokerGame.Counts.afterAll {game : PokerGame} (solvent : Solvent game)
    (counts : PokerGame.Counts game) (requests : List Request) :
    PokerGame.Counts (game.afterAll requests) := by
  induction requests generalizing game with
  | nil => exact counts
  | cons request rest ih =>
      exact ih (PokerGame.serve_solvent solvent request) (counts.serve solvent request)

def spectators : Labels where
  py := .ascii
  title := id
  of playerId :=
    if playerId = 0 then ⟨"LLM1".toList, some ⟨"beginner_agent".toList, "short stack".toList⟩⟩
    else ⟨"CPU1".toList, none⟩

end Holdem
