import Holdem.ActionItems
import Holdem.AgentOnly

set_option autoImplicit false

/- From the text of `--agents` to the table of `run_agent_only_mode`. -/
namespace Holdem

inductive PlayerType
  | human
  | random
  | llm
  | llmApi
  | unknown (text : String)
deriving DecidableEq, Repr

structure PlayerConfig where
  type : PlayerType
  model : Option (List Char) := none
  agentId : Option (List Char) := none
  userId : Option (List Char) := none
deriving DecidableEq, Repr

/-! ### Reading the text -/

/-- The `ValueError`s of `_parse_agents_config`. -/
inductive ConfigError
  | invalidSpec (agentSpec : List Char)
  | unknownAgent (agentName : List Char) (available : List (List Char))
  | invalidCount (countStr : List Char)
  | tooFew
  | tooMany
deriving DecidableEq, Repr

/-- The message, with `repr` of a list of names. -/
def ConfigError.message (repr : List (List Char) → String) : ConfigError → String
  | .invalidSpec agentSpec =>
      "無効なエージェント設定: " ++ String.ofList agentSpec ++ ". 形式: 'agent_name:count'"
  | .unknownAgent agentName available =>
      "不明なエージェント: " ++ String.ofList agentName ++ ". 利用可能: " ++ repr available
  | .invalidCount countStr => "無効なプレイヤー数: " ++ String.ofList countStr
  | .tooFew => "最低2人のプレイヤーが必要です"
  | .tooMany => "最大10人のプレイヤーまでサポートされます"

/-- The list to fall back on when no agent is found. -/
def knownAgents : List (List Char) :=
  ["team1_agent".toList, "team2_agent".toList, "team3_agent".toList, "team4_agent".toList,
    "beginner_agent".toList]

/-- One turn of the loop: the name and the count of an entry. A count that is not positive is
reported like one that is no number. -/
def specOf (py : PyText) (available : List (List Char)) (entry : List Char) :
    Except ConfigError (List Char × Nat) :=
  let agentSpec := Text.strip py.space entry
  match Text.cut [':'] agentSpec with
  | none => .error (.invalidSpec agentSpec)
  | some (name, countStr) =>
      let agentName := Text.strip py.space name
      if agentName ∉ available then .error (.unknownAgent agentName available)
      else
        match Numeral.parseInt py.alphabet (Text.strip py.space countStr) with
        | none => .error (.invalidCount countStr)
        | some count =>
            if count ≤ 0 then .error (.invalidCount countStr) else .ok (agentName, count.toNat)

def agentConfig (agentName : List Char) (playerId : Nat) : PlayerConfig where
  type := .llmApi
  agentId := some agentName
  userId := some (s!"player_{playerId}").toList

def parseSpecs (py : PyText) (available : List (List Char)) :
    List (List Char) → List PlayerConfig → Nat → Except ConfigError (List PlayerConfig)
  | [], configs, _ => .ok configs
  | entry :: rest, configs, playerId =>
      match specOf py available entry with
      | .error raised => .error raised
      | .ok (agentName, count) =>
          parseSpecs py available rest
            (configs ++ (List.range count).map fun i => agentConfig agentName (playerId + i))
            (playerId + count)

/-- The agents that a text may name, where `_get_available_agents` finds these. -/
def availableAgents (found : List (List Char)) : List (List Char) :=
  if found.isEmpty then knownAgents else found

def parseAgentsConfig (py : PyText) (found : List (List Char)) (agentsConfig : List Char) :
    Except ConfigError (List PlayerConfig) :=
  match parseSpecs py (availableAgents found) (agentsConfig.splitOn ',') [] 0 with
  | .error raised => .error raised
  | .ok configs =>
      if configs.length < 2 then .error .tooFew
      else if configs.length > 10 then .error .tooMany
      else .ok configs

/-! ### Seating the players -/

/-- The class of a player object, with the attributes that the table does not read. -/
inductive PlayerKind
  | human
  | random
  | llm (model : List Char)
  | llmApi (appName userId : List Char)
deriving DecidableEq, Repr

structure NewPlayer where
  kind : PlayerKind
  name : String
  player : Player
deriving DecidableEq, Repr

/-- The model of an `LLMPlayer` that is made without one. -/
def defaultModel : List Char := "gemini-2.5-flash-lite".toList

def addPlayer (players : List NewPlayer) (player : NewPlayer) : Except PyError (List NewPlayer) :=
  if players.length ≥ 10 then .error (.valueError "Maximum 10 players allowed")
  else .ok (players ++ [player])

/-- The player that `setup_configurable_game_with_models` makes of a configuration. -/
def playerOf (initialChips : Int) (i : Nat) (config : PlayerConfig) : Except PyError NewPlayer :=
  let player : Player := { id := i, chips := initialChips }
  match config.type with
  | .human => .ok ⟨.human, if i = 0 then "You" else s!"Player{i}", player⟩
  | .random => .ok ⟨.random, s!"CPU{i}", player⟩
  | .llm =>
      .ok ⟨.llm ((config.model.filter fun model => !model.isEmpty).getD defaultModel), s!"AI{i}", player⟩
  | .llmApi =>
      .ok ⟨.llmApi (config.agentId.getD "team1_agent".toList)
        (config.userId.getD (s!"player_{i}").toList), agentName i, player⟩
  | .unknown text => .error (.valueError ("Unknown player type: " ++ text))

def seatPlayers (initialChips : Int) :
    Nat → List PlayerConfig → List NewPlayer → Except PyError (List NewPlayer)
  | _, [], players => .ok players
  | i, config :: rest, players =>
      match playerOf initialChips i config with
      | .error raised => .error raised
      | .ok player =>
          match addPlayer players player with
          | .error raised => .error raised
          | .ok players => seatPlayers initialChips (i + 1) rest players

/-- The players of `setup_configurable_game_with_models`. -/
def setupConfigurableGameWithModels (initialChips : Int) (configs : List PlayerConfig) :
    Except PyError (List NewPlayer) :=
  if 2 ≤ configs.length ∧ configs.length ≤ 10 then seatPlayers initialChips 0 configs []
  else .error (.valueError "player_configs must be a list of 2 to 10 dictionaries")

def getAgentTypeForPlayer (configs : List PlayerConfig) (seated : NewPlayer) : List Char :=
  let named := ((configs[seated.player.id.toNat]?).bind PlayerConfig.agentId).filter fun agentId =>
    !agentId.isEmpty
  match named with
  | some agentId => agentId
  | none =>
      match seated.kind with
      | .llmApi appName _ => appName
      | .llm model => "llm(".toList ++ model ++ [')']
      | .random => if "CPU".toList.isPrefixOf seated.name.toList then "random".toList
          else "unknown".toList
      | .human => if "CPU".toList.isPrefixOf seated.name.toList then "random".toList
          else "unknown".toList

/-- What stops `run_agent_only_mode` before its loop. -/
inductive SetupFault
  | config (raised : ConfigError)
  | setup (raised : PyError)

/-- `run_agent_only_mode` up to its loop: a game with the default values of `PokerGame`, the
button that `random.randint` draws, and `player_stats`. -/
def agentOnlyStart (py : PyText) (found : List (List Char)) (randint : Nat → Nat)
    (agentsConfig : List Char) : Except SetupFault AgentState :=
  match parseAgentsConfig py found agentsConfig with
  | .error raised => .error (.config raised)
  | .ok configs =>
      match setupConfigurableGameWithModels 2000 configs with
      | .error raised => .error (.setup raised)
      | .ok seated =>
          let game : PokerGame :=
            { smallBlind := 10
              bigBlind := 20
              players := seated.map NewPlayer.player
              dealerButton := randint (seated.length - 1) }
          .ok
            { handCount := 0
              stats := Dict.ofPairs (seated.map fun player =>
                (player.name, { agentType := String.ofList (getAgentTypeForPlayer configs player) }))
              driver := ⟨.betweenHands, game⟩ }

/-! ### What the loop over the entries gives -/

def listing (specs : List (List Char × Nat)) : List (List Char) :=
  specs.flatMap fun spec => List.replicate spec.2 spec.1

def configsOf (agents : List (List Char)) : List PlayerConfig :=
  agents.mapIdx fun playerId name => agentConfig name playerId

theorem configsOf_append (agents : List (List Char)) (name : List Char) (count : Nat) :
    configsOf (agents ++ List.replicate count name) =
      configsOf agents ++ (List.range count).map fun i => agentConfig name (agents.length + i) := by
  unfold configsOf
  rw [List.mapIdx_append]
  congr 1
  apply List.ext_getElem
  · rw [List.length_mapIdx, List.length_replicate, List.length_map, List.length_range]
  · intro i inside _
    rw [List.getElem_mapIdx, List.getElem_replicate, List.getElem_map, List.getElem_range,
      Nat.add_comm]

/-- Induction over the entries: the loop reads all of them, or stops at the first one that
`specOf` refuses; the numbers of the players go on from entry to entry. -/
theorem parseSpecs_eq (py : PyText) (available : List (List Char)) (entries : List (List Char))
    (agents : List (List Char)) :
    parseSpecs py available entries (configsOf agents) agents.length =
      (entries.mapM (specOf py available)).map fun specs => configsOf (agents ++ listing specs) := by
  induction entries generalizing agents with
  | nil =>
      show Except.ok (configsOf agents) = Except.ok (configsOf (agents ++ []))
      rw [List.append_nil]
  | cons entry rest ih =>
      rw [parseSpecs, List.mapM_cons]
      cases spec : specOf py available entry with
      | error raised => rfl
      | ok read =>
          obtain ⟨name, count⟩ := read
          have next := ih (agents ++ List.replicate count name)
          rw [List.length_append, List.length_replicate] at next
          dsimp only
          rw [← configsOf_append, next]
          cases rest.mapM (specOf py available) with
          | error raised => rfl
          | ok specs =>
              show Except.ok (configsOf (agents ++ List.replicate count name ++ listing specs)) = _
              rw [List.append_assoc]
              rfl

theorem specOf_ok {py : PyText} {available : List (List Char)} {entry name : List Char}
    {count : Nat} (read : specOf py available entry = .ok (name, count)) :
    name ∈ available ∧ 0 < count := by
  unfold specOf at read
  dsimp only at read
  split at read
  · cases read
  · split at read
    · cases read
    · rename_i known
      split at read
      · cases read
      · split at read
        · cases read
        · cases read
          exact ⟨not_not.mp known, by omega⟩

theorem mem_listing {py : PyText} {available entries : List (List Char)}
    {specs : List (List Char × Nat)} (read : entries.mapM (specOf py available) = .ok specs) :
    ∀ agent ∈ listing specs, agent ∈ available := by
  induction entries generalizing specs with
  | nil =>
      cases read
      intro agent member
      cases member
  | cons entry rest ih =>
      rw [List.mapM_cons] at read
      cases spec : specOf py available entry with
      | error raised =>
          rw [spec] at read
          cases read
      | ok first =>
          cases others : rest.mapM (specOf py available) with
          | error raised =>
              rw [spec, others] at read
              cases read
          | ok later =>
              rw [spec, others] at read
              cases read
              intro agent member
              rcases List.mem_append.mp (show agent ∈ List.replicate first.2 first.1 ++ listing later
                from member) with here | behind
              · exact (List.mem_replicate.mp here).2 ▸ (specOf_ok spec).1
              · exact ih others agent behind

/-- What `_parse_agents_config` makes of the agents that the entries list. -/
def counted (agents : List (List Char)) : Except ConfigError (List PlayerConfig) :=
  if agents.length < 2 then .error .tooFew
  else if agents.length > 10 then .error .tooMany
  else .ok (configsOf agents)

theorem parseAgentsConfig_eq (py : PyText) (found : List (List Char)) (agentsConfig : List Char) :
    parseAgentsConfig py found agentsConfig =
      ((agentsConfig.splitOn ',').mapM (specOf py (availableAgents found))).bind fun specs =>
        counted (listing specs) := by
  have loop := parseSpecs_eq py (availableAgents found) (agentsConfig.splitOn ',') []
  have count : ∀ agents, (configsOf agents).length = agents.length := fun agents =>
    List.length_mapIdx
  unfold parseAgentsConfig
  rw [show ([] : List PlayerConfig) = configsOf [] from rfl, show 0 = ([] : List (List Char)).length
    from rfl, loop]
  cases (agentsConfig.splitOn ',').mapM (specOf py (availableAgents found)) with
  | error raised => rfl
  | ok specs =>
      show (if (configsOf (listing specs)).length < 2 then Except.error ConfigError.tooFew
        else if (configsOf (listing specs)).length > 10 then .error .tooMany
        else .ok (configsOf (listing specs))) = counted (listing specs)
      rw [count]
      rfl

/-! ### What the loop over the configurations gives -/

def seatOf (initialChips : Int) (name : List Char) (i : Nat) : NewPlayer where
  kind := .llmApi name (s!"player_{i}").toList
  name := agentName i
  player := { id := i, chips := initialChips }

theorem seatPlayers_eq (initialChips : Int) (agents : List (List Char)) (players : List NewPlayer)
    (room : players.length + agents.length ≤ 10) :
    seatPlayers initialChips players.length
        (agents.mapIdx fun i name => agentConfig name (players.length + i)) players =
      .ok (players ++ agents.mapIdx fun i name => seatOf initialChips name (players.length + i)) := by
  induction agents generalizing players with
  | nil =>
      rw [List.mapIdx_nil, List.mapIdx_nil, seatPlayers, List.append_nil]
  | cons name rest ih =>
      rw [List.length_cons] at room
      have seat : playerOf initialChips players.length (agentConfig name players.length) =
          .ok (seatOf initialChips name players.length) := rfl
      have added : addPlayer players (seatOf initialChips name players.length) =
          .ok (players ++ [seatOf initialChips name players.length]) := by
        unfold addPlayer
        rw [if_neg (by omega)]
      have next := ih (players ++ [seatOf initialChips name players.length]) (by
        rw [List.length_append, List.length_singleton]
        omega)
      have shifted : ∀ i, players.length + 1 + i = players.length + (i + 1) := by
        intro i
        omega
      rw [List.length_append, List.length_singleton] at next
      simp only [shifted] at next
      rw [List.mapIdx_cons, List.mapIdx_cons, Nat.add_zero, seatPlayers, seat]
      dsimp only
      rw [added]
      dsimp only
      rw [next, List.append_assoc, List.singleton_append]

theorem setup_agents (initialChips : Int) {agents : List (List Char)} (few : 2 ≤ agents.length)
    (many : agents.length ≤ 10) :
    setupConfigurableGameWithModels initialChips (configsOf agents) =
      .ok (agents.mapIdx fun i name => seatOf initialChips name i) := by
  have seated := seatPlayers_eq initialChips agents [] (by rwa [List.length_nil, Nat.zero_add])
  have count : (configsOf agents).length = agents.length := List.length_mapIdx
  simp only [List.length_nil, Nat.zero_add, List.nil_append] at seated
  unfold setupConfigurableGameWithModels
  rw [count, if_pos ⟨few, many⟩]
  exact seated

/-- Everybody is counted under the agent that was asked for at the seat. -/
theorem agentType_of_seat (initialChips : Int) {agents : List (List Char)} {i : Nat}
    {name : List Char} (seat : agents[i]? = some name) :
    getAgentTypeForPlayer (configsOf agents) (seatOf initialChips name i) = name := by
  have entry : (configsOf agents)[((i : Nat) : Int).toNat]? = some (agentConfig name i) := by
    unfold configsOf
    rw [Int.toNat_natCast, List.getElem?_mapIdx, seat]
    rfl
  unfold getAgentTypeForPlayer
  rw [show (seatOf initialChips name i).player.id.toNat = ((i : Nat) : Int).toNat from rfl, entry]
  show (match Option.filter (fun agentId => !agentId.isEmpty) (some name) with
    | some agentId => agentId
    | none => name) = name
  cases name with
  | nil => rfl
  | cons char rest => rfl

/-! ### The table -/

def agentAt (agents : List (List Char)) (playerId : Int) : String :=
  String.ofList (agents.getD playerId.toNat [])

/-- The state in front of the loop is the one of a table with the default blinds and chips, where
these agents sit in this order. -/
def SeatsAgents (randint : Nat → Nat) (agents : List (List Char)) (state : AgentState) : Prop :=
  ∃ table : Table, table.smallBlind = 10 ∧ table.bigBlind = 20 ∧
    table.chips = List.replicate agents.length 2000 ∧
    table.button = randint (agents.length - 1) ∧ state = table.startAgents (agentAt agents)

/-- The start of the mode once the text is read. -/
theorem start_counted {py : PyText} {found : List (List Char)} {randint : Nat → Nat}
    {agentsConfig : List Char} {agents : List (List Char)}
    (inRange : ∀ last, randint last ≤ last)
    (read : parseAgentsConfig py found agentsConfig = counted agents) (few : 2 ≤ agents.length)
    (many : agents.length ≤ 10) :
    ∃ state, agentOnlyStart py found randint agentsConfig = .ok state ∧
      SeatsAgents randint agents state := by
  have configs : counted agents = .ok (configsOf agents) := by
    unfold counted
    rw [if_neg (by omega), if_neg (by omega)]
  have drawn := inRange (agents.length - 1)
  let table : Table :=
    { smallBlind := 10
      bigBlind := 20
      chips := List.replicate agents.length 2000
      button := randint (agents.length - 1)
      seats_ge := by rwa [List.length_replicate]
      seats_le := by rwa [List.length_replicate]
      chips_pos := by
        intro stack member
        rw [(List.mem_replicate.mp member).2]
        decide
      button_lt := by
        rw [List.length_replicate]
        omega }
  have seats : (agents.mapIdx fun i name => seatOf 2000 name i).map NewPlayer.player =
      table.game.players := by
    apply List.ext_getElem
    · simp only [List.length_map, List.length_mapIdx, Table.game, table, List.length_replicate]
    · intro i inside _
      simp only [List.getElem_map, List.getElem_mapIdx, Table.game, table, List.getElem_replicate,
        seatOf]
  let kind (player : NewPlayer) : String :=
    String.ofList (getAgentTypeForPlayer (configsOf agents) player)
  have entries : ((agents.mapIdx fun i name => seatOf 2000 name i).map fun player =>
        (player.name, ({ agentType := kind player } : PlayerStats))) =
      table.game.players.map fun player =>
        (agentName player.id, { agentType := agentAt agents player.id }) := by
    rw [← seats, List.map_map]
    apply List.ext_getElem
    · rw [List.length_map, List.length_map]
    · intro i inside _
      rw [List.length_map, List.length_mapIdx] at inside
      have here : agents[i]? = some agents[i] := List.getElem?_eq_getElem inside
      have listed := agentType_of_seat 2000 here
      have asked : agentAt agents i = String.ofList agents[i] := by
        unfold agentAt
        rw [Int.toNat_natCast, List.getD_eq_getElem?_getD, here, Option.getD_some]
      simp only [List.getElem_map, List.getElem_mapIdx, Function.comp_apply, kind, listed]
      rw [← asked]
      rfl
  refine ⟨table.startAgents (agentAt agents), ?_, table, rfl, rfl, rfl, rfl, rfl⟩
  unfold agentOnlyStart
  rw [read, configs]
  dsimp only
  rw [setup_agents 2000 few many]
  dsimp only
  rw [seats, show _ = _ from entries, List.length_mapIdx]
  rfl

theorem start_refused {py : PyText} {found : List (List Char)} {randint : Nat → Nat}
    {agentsConfig : List Char} {raised : ConfigError}
    (fails : parseAgentsConfig py found agentsConfig = .error raised) :
    agentOnlyStart py found randint agentsConfig = .error (.config raised) := by
  unfold agentOnlyStart
  rw [fails]

/-- The mode starts at such a table, or the text is refused: the seats never are. -/
theorem start_cases (py : PyText) (found : List (List Char)) {randint : Nat → Nat}
    (inRange : ∀ last, randint last ≤ last) (agentsConfig : List Char) :
    (∃ raised, agentOnlyStart py found randint agentsConfig = .error (.config raised)) ∨
      ∃ agents state, (∀ agent ∈ agents, agent ∈ availableAgents found) ∧
        agentOnlyStart py found randint agentsConfig = .ok state ∧
        SeatsAgents randint agents state := by
  have whole := parseAgentsConfig_eq py found agentsConfig
  cases read : (agentsConfig.splitOn ',').mapM (specOf py (availableAgents found)) with
  | error raised =>
      rw [read] at whole
      exact Or.inl ⟨raised, start_refused whole⟩
  | ok specs =>
      rw [read] at whole
      change parseAgentsConfig py found agentsConfig = counted (listing specs) at whole
      by_cases few : (listing specs).length < 2
      · refine Or.inl ⟨.tooFew, start_refused (whole.trans ?_)⟩
        unfold counted
        rw [if_pos few]
      · by_cases many : (listing specs).length > 10
        · refine Or.inl ⟨.tooMany, start_refused (whole.trans ?_)⟩
          unfold counted
          rw [if_neg few, if_pos many]
        · obtain ⟨state, starts, seated⟩ := start_counted inRange whole (by omega) (by omega)
          exact Or.inr ⟨listing specs, state, mem_listing read, starts, seated⟩

/-! ### An entry as one writes it -/

/-- An entry `name:count`, with white space wherever `strip` takes it away. -/
structure AgentSpec (py : PyText) where
  lead : List Char
  name : List Char
  nameTail : List Char
  countLead : List Char
  count : Nat
  countTail : List Char
  blank : ∀ char ∈ lead ++ nameTail ++ countLead ++ countTail, py.space char = true
  plain : ∀ char ∈ name, char ≠ ',' ∧ char ≠ ':'
  starts : ∀ char, name.head? = some char → py.space char = false
  ends : ∀ char, name.getLast? = some char → py.space char = false
  present : name ≠ []
  count_pos : 0 < count

namespace AgentSpec

variable {py : PyText} (spec : AgentSpec py)

def text : List Char :=
  spec.lead ++ (spec.name ++ spec.nameTail ++ [':'] ++ (spec.countLead ++ spec.count.repr.toList) ++
    spec.countTail)

theorem blank_parts :
    (∀ char ∈ spec.lead, py.space char = true) ∧ (∀ char ∈ spec.nameTail, py.space char = true) ∧
    (∀ char ∈ spec.countLead, py.space char = true) ∧
    ∀ char ∈ spec.countTail, py.space char = true := by
  have blank := spec.blank
  simp only [List.mem_append] at blank
  exact ⟨fun char member => blank char (Or.inl (Or.inl (Or.inl member))),
    fun char member => blank char (Or.inl (Or.inl (Or.inr member))),
    fun char member => blank char (Or.inl (Or.inr member)),
    fun char member => blank char (Or.inr member)⟩

end AgentSpec

variable {py : PyText}

/-- The marks of an entry and the digits are no white space. -/
theorem visible_sign {char : Char} (sign : char = ',' ∨ char = ':' ∨ char.isDigit = true) :
    py.space char = false := by
  have ascii : char.val < 128 := by
    rcases sign with rfl | rfl | digit
    · decide
    · decide
    · exact ascii_of_digit digit
  rw [py.space_ascii char ascii]
  rcases sign with rfl | rfl | digit
  · decide
  · decide
  · cases found : asciiSpaces.contains char with
    | false => rfl
    | true =>
        have listed : char ∈ asciiSpaces := by simpa using found
        have none : ∀ space ∈ asciiSpaces, space.isDigit = false := by decide
        rw [none char listed] at digit
        cases digit

theorem unmarked {char mark : Char} (sign : mark = ',' ∨ mark = ':')
    (other : py.space char = true ∨ char.isDigit = true) : char ≠ mark := by
  rintro rfl
  rcases other with blank | digit
  · rw [visible_sign (sign.imp_right Or.inl)] at blank
    cases blank
  · rcases sign with rfl | rfl <;> cases digit

theorem specOf_text {available : List (List Char)} (spec : AgentSpec py)
    (known : spec.name ∈ available) :
    specOf py available spec.text = .ok (spec.name, spec.count) := by
  obtain ⟨lead, nameTail, countLead, countTail⟩ := spec.blank_parts
  have digits : ∀ char ∈ spec.count.repr.toList, char.isDigit = true := fun char =>
    Numeral.isDigit_of_mem_repr
  have written := repr_ne_nil spec.count
  have bare : Text.strip py.space spec.text =
      spec.name ++ spec.nameTail ++ [':'] ++ (spec.countLead ++ spec.count.repr.toList) := by
    unfold AgentSpec.text
    rw [Text.strip_lead lead, Text.strip_tail countTail]
    apply Text.strip_ends
    · intro char head
      rw [List.append_assoc, List.append_assoc, List.head?_append_of_ne_nil _ spec.present] at head
      exact spec.starts char head
    · intro char last
      rw [← List.append_assoc, List.getLast?_append_of_ne_nil _ written] at last
      exact visible_sign (Or.inr (Or.inr (digits char (List.mem_of_getLast? last))))
  have colon : ':' ∉ spec.name ++ spec.nameTail := by
    intro member
    rcases List.mem_append.mp member with inside | behind
    · exact (spec.plain ':' inside).2 rfl
    · exact unmarked (Or.inr rfl) (Or.inl (nameTail ':' behind)) rfl
  have name : Text.strip py.space (spec.name ++ spec.nameTail) = spec.name := by
    rw [Text.strip_tail nameTail, Text.strip_ends spec.starts spec.ends]
  have number : Text.strip py.space (spec.countLead ++ spec.count.repr.toList) =
      spec.count.repr.toList := by
    rw [Text.strip_lead countLead, Numeral.strip_eq_self fun char member =>
      visible_sign (Or.inr (Or.inr (digits char member)))]
  have positive := spec.count_pos
  unfold specOf
  dsimp only
  rw [bare, Text.cut_append colon]
  dsimp only
  rw [name, if_neg (not_not.mpr known), number, Numeral.parseInt_repr]
  dsimp only
  rw [if_neg (by omega), Int.toNat_natCast]

theorem comma_text (spec : AgentSpec py) : ',' ∉ spec.text := by
  obtain ⟨lead, nameTail, countLead, countTail⟩ := spec.blank_parts
  have blank : ∀ {piece : List Char}, (∀ char ∈ piece, py.space char = true) → ',' ∉ piece :=
    fun spaces member => unmarked (Or.inl rfl) (Or.inl (spaces ',' member)) rfl
  have digits : ',' ∉ spec.count.repr.toList := by
    intro member
    cases Numeral.isDigit_of_mem_repr member
  have name : ',' ∉ spec.name := fun member => (spec.plain ',' member).1 rfl
  have colon : ',' ∉ [':'] := by decide
  unfold AgentSpec.text
  simp only [List.mem_append, blank lead, blank nameTail, blank countLead, blank countTail, digits,
    name, colon, or_false, not_false_eq_true]

/-- The seats that the entries ask for. -/
def AgentSpec.seats (specs : List (AgentSpec py)) : List (List Char) :=
  listing (specs.map fun spec => (spec.name, spec.count))

theorem mapM_texts {available : List (List Char)} {specs : List (AgentSpec py)}
    (known : ∀ spec ∈ specs, spec.name ∈ available) (more : List (List Char)) :
    (specs.map AgentSpec.text ++ more).mapM (specOf py available) =
      (more.mapM (specOf py available)).map fun others =>
        specs.map (fun spec => (spec.name, spec.count)) ++ others := by
  induction specs with
  | nil =>
      rw [List.map_nil, List.nil_append]
      cases more.mapM (specOf py available) <;> rfl
  | cons spec rest ih =>
      rw [List.map_cons, List.cons_append, List.mapM_cons,
        specOf_text spec (known spec (List.mem_cons_self ..)),
        ih fun other member => known other (List.mem_cons_of_mem _ member)]
      cases more.mapM (specOf py available) <;> rfl

/-- `agents_config` puts the agents at the table as it lists them. Whatever the text, the mode
either reports it and stops or starts its loop at a table of two to ten agents it knows, with
the statistics of each kept under the agent of its seat. Entries that are written as documented
are read with any white space, and are refused only for the number of seats; of other entries the
first one is reported. -/
theorem agents_config_table (py : PyText) (found : List (List Char)) (randint : Nat → Nat)
    (inRange : ∀ last, randint last ≤ last) :
    (∀ agentsConfig,
      (∃ raised, agentOnlyStart py found randint agentsConfig = .error (.config raised)) ∨
      ∃ agents state, (∀ agent ∈ agents, agent ∈ availableAgents found) ∧
        agentOnlyStart py found randint agentsConfig = .ok state ∧
        SeatsAgents randint agents state) ∧
    (∀ specs : List (AgentSpec py), specs ≠ [] →
      (∀ spec ∈ specs, spec.name ∈ availableAgents found) →
      let agentsConfig := [','].intercalate (specs.map AgentSpec.text)
      let agents := AgentSpec.seats specs
      (agents.length < 2 →
        agentOnlyStart py found randint agentsConfig = .error (.config .tooFew)) ∧
      (10 < agents.length →
        agentOnlyStart py found randint agentsConfig = .error (.config .tooMany)) ∧
      (2 ≤ agents.length → agents.length ≤ 10 →
        ∃ state, agentOnlyStart py found randint agentsConfig = .ok state ∧
          SeatsAgents randint agents state)) ∧
    ∀ (specs : List (AgentSpec py)) (entry : List Char) (rest : List (List Char)) raised,
      (∀ spec ∈ specs, spec.name ∈ availableAgents found) →
      (∀ other ∈ entry :: rest, ',' ∉ other) →
      specOf py (availableAgents found) entry = .error raised →
      agentOnlyStart py found randint
          ([','].intercalate (specs.map AgentSpec.text ++ entry :: rest)) =
        .error (.config raised) := by
  have texts : ∀ specs : List (AgentSpec py), ∀ piece ∈ specs.map AgentSpec.text, ',' ∉ piece := by
    intro specs piece member
    obtain ⟨spec, _, rfl⟩ := List.mem_map.mp member
    exact comma_text spec
  refine ⟨start_cases py found inRange, ?_, ?_⟩
  · intro specs some known
    dsimp only
    have entries : ([','].intercalate (specs.map AgentSpec.text)).splitOn ',' =
        specs.map AgentSpec.text :=
      List.splitOn_intercalate ',' (texts specs) fun none => some (List.map_eq_nil_iff.mp none)
    have listed := mapM_texts known []
    rw [List.append_nil] at listed
    have read : parseAgentsConfig py found ([','].intercalate (specs.map AgentSpec.text)) =
        counted (AgentSpec.seats specs) := by
      rw [parseAgentsConfig_eq, entries, listed]
      show counted (listing (specs.map (fun spec => (spec.name, spec.count)) ++ [])) = _
      rw [List.append_nil]
      rfl
    refine ⟨fun few => ?_, fun many => ?_, start_counted inRange read⟩
    · refine start_refused (read.trans ?_)
      unfold counted
      rw [if_pos few]
    · refine start_refused (read.trans ?_)
      unfold counted
      rw [if_neg (by omega), if_pos many]
  · intro specs entry rest raised known whole wrong
    have entries : ([','].intercalate (specs.map AgentSpec.text ++ entry :: rest)).splitOn ',' =
        specs.map AgentSpec.text ++ entry :: rest := by
      apply List.splitOn_intercalate
      · intro piece member
        rcases List.mem_append.mp member with front | back
        · exact texts specs piece front
        · exact whole piece back
      · exact List.append_ne_nil_of_right_ne_nil _ (List.cons_ne_nil _ _)
    refine start_refused ?_
    rw [parseAgentsConfig_eq, entries, mapM_texts known, List.mapM_cons, wrong]
    rfl

/-- The default value of `agents_config`, where no agent is found. -/
theorem agents_config_table_default :
    ∃ state, agentOnlyStart .ascii [] (fun _ => 0) "team1_agent:2,team2_agent:2".toList = .ok state ∧
      SeatsAgents (fun _ => 0)
        ["team1_agent".toList, "team1_agent".toList, "team2_agent".toList, "team2_agent".toList]
        state := by
  let first : AgentSpec .ascii :=
    { lead := [], name := "team1_agent".toList, nameTail := [], countLead := [], count := 2,
      countTail := []
      blank := by decide
      plain := by decide
      starts := by
        rintro char ⟨⟩
        rfl
      ends := by
        rintro char ⟨⟩
        rfl
      present := by decide
      count_pos := by decide }
  let second : AgentSpec .ascii :=
    { lead := [], name := "team2_agent".toList, nameTail := [], countLead := [], count := 2,
      countTail := []
      blank := by decide
      plain := by decide
      starts := by
        rintro char ⟨⟩
        rfl
      ends := by
        rintro char ⟨⟩
        rfl
      present := by decide
      count_pos := by decide }
  have table := agents_config_table .ascii [] (fun _ => 0) Nat.zero_le
  have known : ∀ spec ∈ [first, second], spec.name ∈ availableAgents [] := by
    intro spec member
    rcases List.mem_cons.mp member with rfl | member
    · decide
    · rw [List.mem_singleton.mp member]
      decide
  have spelt : [','].intercalate ([first, second].map AgentSpec.text) =
      "team1_agent:2,team2_agent:2".toList := by decide
  have starts := (table.2.1 [first, second] (List.cons_ne_nil _ _) known).2.2 (by decide) (by decide)
  rw [spelt] at starts
  exact starts

end Holdem
