import Holdem.LogParser

set_option autoImplicit false

/- The prompts of a log: where one ends, and what it takes from the players that are known. -/
namespace Holdem

namespace PyLib

variable {Stamp : Type} (lib : PyLib Stamp)

/-- Braces of a prompt are still open at the end of the lines. -/
def promptOpen (openBraces : Int) : List (List Char) → Bool
  | [] => decide (0 < openBraces)
  | next :: rest =>
      let line := Text.strip lib.space next
      decide (0 < openBraces) && !lib.startsWithStamp line &&
        promptOpen (openBraces + braceCount line) rest

/-- The message of a line that starts a prompt. -/
def promptMessage (line : List Char) : Option (List Char) :=
  match lib.linePattern.matchStart (Text.strip lib.space line) with
  | none => none
  | some groups =>
      if messageBranch (groupText groups 2) (groupText groups 1) = .llmPrompt ∧
          (lib.promptPattern.search (groupText groups 2)).isSome = true then
        some (groupText groups 2)
      else none

/-- The lines end inside a prompt. -/
def unfinished : List (List Char) → Bool
  | [] => false
  | line :: following =>
      ((lib.promptMessage line).any fun message => lib.promptOpen (braceCount message) following) ||
        unfinished following

def promptName (message : List Char) : List Char :=
  groupText ((lib.promptPattern.search message).getD []) 0

/-- A prompt that raises once its player is known: its `players` or its sum cannot be read. -/
def promptFault (prompt : List (List Char × Json)) : Bool :=
  (match prompt.lookup "players".toList with
    | some (.list infos) => infos.any fun info => (promptPlayer info).toOption.isNone
    | _ => false) || (lib.promptBet prompt).toOption.isNone

/-- It makes no difference to whether a prompt raises if its player is known. -/
def evenhanded (fullMessage playerName : List Char) : Bool :=
  match jsonPart fullMessage with
  | none => true
  | some json =>
      match lib.loads json with
      | .error _ => true
      | .ok prompt =>
          match lib.newKey prompt playerName with
          | .error _ => lib.promptFault prompt
          | .ok none => !lib.promptFault prompt
          | .ok (some _) => true

def evenhandedLines : List (List Char) → Bool
  | [] => true
  | line :: following =>
      ((lib.promptMessage line).all fun message =>
        lib.evenhanded (lib.collectMultiLineJson following message) (lib.promptName message)) &&
          evenhandedLines following

/-- The first of the lines, if there is one, is a log line of its own. -/
def opensWithStamp : List (List Char) → Bool
  | [] => true
  | line :: _ => lib.startsWithStamp (Text.strip lib.space line)

end PyLib

/-! ### What a prompt takes from the players that are known -/

/-- Two computations give the same, or both raise. -/
def SameOutcome {α : Type} : Except PyError α → Except PyError α → Prop
  | .ok left, .ok right => left = right
  | .error _, .error _ => True
  | _, _ => False

theorem SameOutcome.refl {α : Type} (outcome : Except PyError α) : SameOutcome outcome outcome := by
  cases outcome with
  | ok value => rfl
  | error raised => trivial

namespace PyLib

variable {Stamp : Type} {lib : PyLib Stamp}

theorem notePlayers_raised (players : List (PlayerKey × SeenPlayer)) (infos : List Json) :
    (lib.notePlayers players infos).2.isSome =
      infos.any fun info => (promptPlayer info).toOption.isNone := by
  induction infos generalizing players with
  | nil => rfl
  | cons info rest ih =>
      rw [notePlayers, List.any_cons]
      unfold notePlayer
      cases promptPlayer info with
      | error raised => rfl
      | ok found =>
          dsimp only [Except.map]
          rw [ih]
          rfl

theorem promptPlayers_raised (players : List (PlayerKey × SeenPlayer))
    (prompt : List (List Char × Json)) :
    (lib.promptPlayers players prompt).2.isSome =
      match prompt.lookup "players".toList with
      | some (.list infos) => infos.any fun info => (promptPlayer info).toOption.isNone
      | _ => false := by
  unfold promptPlayers
  cases prompt.lookup "players".toList with
  | none => rfl
  | some value =>
      cases value with
      | list infos => exact notePlayers_raised players infos
      | null => rfl
      | bool value => rfl
      | int value => rfl
      | float value => rfl
      | str text => rfl
      | dict entries => rfl

theorem applyPrompt_raised (state : LogGameState Stamp) (prompt : List (List Char × Json))
    (key : PlayerKey) :
    (lib.applyPrompt state prompt key).2.isSome = lib.promptFault prompt := by
  unfold applyPrompt promptFault
  dsimp only
  rw [← promptPlayers_raised]
  cases (lib.promptPlayers _ prompt).2 with
  | some raised => rfl
  | none =>
      cases lib.promptBet prompt with
      | error raised => rfl
      | ok bet => rfl

theorem applyPrompt_players {left right : LogGameState Stamp} (same : left.players = right.players)
    (prompt : List (List Char × Json)) (key : PlayerKey) :
    (lib.applyPrompt left prompt key).1.players = (lib.applyPrompt right prompt key).1.players ∧
      (lib.applyPrompt left prompt key).2 = (lib.applyPrompt right prompt key).2 := by
  unfold applyPrompt
  dsimp only
  rw [same]
  generalize lib.promptPlayers _ prompt = noted
  obtain ⟨players, raised⟩ := noted
  cases raised with
  | some raised => exact ⟨rfl, rfl⟩
  | none => cases lib.promptBet prompt <;> exact ⟨rfl, rfl⟩

/-- The prompt of a player whose name nobody bears raises, gives up, or is taken in. -/
theorem promptTarget_raised (lib : PyLib Stamp) (players : List (PlayerKey × SeenPlayer))
    (prompt : List (List Char × Json)) (playerName : List Char) :
    (∃ found, lib.promptTarget players prompt playerName = .ok (some found)) ∨
      lib.promptTarget players prompt playerName =
        (lib.newKey prompt playerName).map fun found =>
          found.map fun key => (key, Dict.set players key { name := playerName }) := by
  unfold promptTarget
  dsimp only
  split
  · exact Or.inl ⟨_, rfl⟩
  · exact Or.inr rfl

/-- Where the players are the same the prompt does the same; an evenhanded one raises for all or
for none. -/
theorem extractCards_agree {left right : LogGameState Stamp} (full playerName : List Char) :
    (left.players = right.players →
      (lib.extractCards left full playerName).1.players =
          (lib.extractCards right full playerName).1.players ∧
        (lib.extractCards left full playerName).2 = (lib.extractCards right full playerName).2) ∧
    (lib.evenhanded full playerName = true →
      (lib.extractCards left full playerName).2.isSome =
        (lib.extractCards right full playerName).2.isSome) := by
  constructor
  · intro same
    unfold extractCards
    split
    · exact ⟨same, rfl⟩
    · split
      · exact ⟨same, rfl⟩
      · exact ⟨same, rfl⟩
      · rw [same]
        split
        · exact ⟨same, rfl⟩
        · exact ⟨same, rfl⟩
        · apply applyPrompt_players
          rfl
  · unfold evenhanded
    intro evenhanded
    cases json : jsonPart full with
    | none => simp only [extractCards, json, Option.isSome_none]
    | some text =>
        rw [json] at evenhanded
        dsimp only at evenhanded
        cases loaded : lib.loads text with
        | error fault => cases fault <;> simp only [extractCards, json, loaded, Option.isSome]
        | ok prompt =>
            rw [loaded] at evenhanded
            dsimp only at evenhanded
            suffices raises : ∀ state : LogGameState Stamp,
                (lib.extractCards state full playerName).2.isSome = lib.promptFault prompt by
              rw [raises, raises]
            intro state
            simp only [extractCards, json, loaded]
            rcases lib.promptTarget_raised state.players prompt playerName with
              ⟨⟨key, players⟩, found⟩ | unknown
            · rw [found]
              exact applyPrompt_raised _ prompt key
            · rw [unknown]
              cases entered : lib.newKey prompt playerName with
              | error raised =>
                  rw [entered] at evenhanded
                  exact evenhanded.symm
              | ok key =>
                  rw [entered] at evenhanded
                  cases key with
                  | none =>
                      have silent : lib.promptFault prompt = false := by simpa using evenhanded
                      rw [silent]
                      rfl
                  | some key => exact applyPrompt_raised _ prompt key

theorem seePlayers_raised (left right : List (PlayerKey × SeenPlayer)) (told : List Regex.Groups) :
    (lib.seePlayers left told).2.isSome = (lib.seePlayers right told).2.isSome := by
  induction told generalizing left right with
  | nil => rfl
  | cons groups rest ih =>
      rw [seePlayers, seePlayers]
      unfold seePlayer
      cases lib.int (groupText groups 0) with
      | error raised => rfl
      | ok playerId =>
          cases lib.int (groupText groups 2) with
          | error raised => rfl
          | ok chips =>
              cases lib.int (groupText groups 3) with
              | error raised => rfl
              | ok currentBet => exact ih _ _

/-- An event raises for all states or for none, and does the same to the same players. -/
theorem updateGameState_agree (left right : LogGameState Stamp) (event : LogEvent Stamp) :
    (left.players = right.players →
      (lib.updateGameState left event).1.players = (lib.updateGameState right event).1.players) ∧
    (lib.updateGameState left event).2.isSome = (lib.updateGameState right event).2.isSome := by
  cases event with
  | handStart timestamp handNumber message =>
      exact ⟨fun same => congrArg (List.map _) same, rfl⟩
  | handEnd timestamp handNumber message => exact ⟨id, rfl⟩
  | phaseChange timestamp handNumber fromPhase toPhase message => exact ⟨id, rfl⟩
  | playerAction timestamp handNumber playerId playerName action amount message =>
      refine ⟨fun same => ?_, rfl⟩
      simp only [updateGameState, same]
  | showdown timestamp handNumber message => exact ⟨id, rfl⟩
  | llmDecision timestamp handNumber player action amount reasoning fullPrompt message =>
      exact ⟨id, rfl⟩
  | gameState timestamp handNumber pot currentBet message =>
      have raised : (lib.extractPlayerInfo left.players message).2.isSome =
          (lib.extractPlayerInfo right.players message).2.isSome := seePlayers_raised _ _ _
      have shown : ∀ state : LogGameState Stamp,
          (lib.updateGameState state
              (.gameState timestamp handNumber pot currentBet message)).1.players =
            (lib.extractPlayerInfo state.players message).1 ∧
          (lib.updateGameState state (.gameState timestamp handNumber pot currentBet message)).2 =
            (lib.extractPlayerInfo state.players message).2 := by
        intro state
        unfold updateGameState
        dsimp only
        cases (lib.extractPlayerInfo state.players message).2 <;> exact ⟨rfl, rfl⟩
      rw [(shown left).1, (shown left).2, (shown right).1, (shown right).2]
      exact ⟨fun same => by rw [same], raised⟩

/-- A message is parsed alike where the players are the same, or do not matter to its prompt. -/
theorem parseMessage_agree {left right : LogGameState Stamp} (hand : Option Nat)
    (message : List Char) (timestamp : Stamp) (logLevel : List Char)
    (following : List (List Char))
    (agree : left.players = right.players ∨ (messageBranch message logLevel = .llmPrompt →
      (lib.promptPattern.search message).isSome = true →
      lib.evenhanded (lib.collectMultiLineJson following message) (lib.promptName message) =
        true)) :
    SameOutcome (lib.parseMessage hand left message timestamp logLevel following).2
        (lib.parseMessage hand right message timestamp logLevel following).2 ∧
      (left.players = right.players →
        (lib.parseMessage hand left message timestamp logLevel following).1.players =
          (lib.parseMessage hand right message timestamp logLevel following).1.players) := by
  unfold parseMessage
  cases branch : messageBranch message logLevel
  case llmPrompt =>
    dsimp only
    split
    · exact ⟨trivial, id⟩
    · cases found : lib.promptPattern.search message with
      | none => exact ⟨rfl, id⟩
      | some groups =>
          have named : lib.promptName message = groupText groups 0 := by
            unfold promptName
            rw [found]
            rfl
          obtain ⟨players, alike⟩ := @extractCards_agree _ lib left right
            (lib.collectMultiLineJson following message) (groupText groups 0)
          have raised : (lib.extractCards left (lib.collectMultiLineJson following message)
                (groupText groups 0)).2.isSome =
              (lib.extractCards right (lib.collectMultiLineJson following message)
                (groupText groups 0)).2.isSome := by
            rcases agree with same | evenhanded
            · rw [(players same).2]
            · exact alike (named ▸ evenhanded branch (by rw [found]; rfl))
          dsimp only
          generalize lib.extractCards left _ _ = one at raised players ⊢
          generalize lib.extractCards right _ _ = other at raised players ⊢
          obtain ⟨before, oneRaised⟩ := one
          obtain ⟨after, otherRaised⟩ := other
          cases oneRaised <;> cases otherRaised
          · exact ⟨rfl, fun same => (players same).1⟩
          · cases raised
          · cases raised
          · exact ⟨trivial, fun same => (players same).1⟩
  case handStart =>
    dsimp only
    split <;> exact ⟨SameOutcome.refl _, id⟩
  case llmDecision =>
    dsimp only
    split <;> exact ⟨SameOutcome.refl _, id⟩
  case gameState =>
    dsimp only
    split <;> exact ⟨SameOutcome.refl _, id⟩
  all_goals exact ⟨SameOutcome.refl _, id⟩

theorem parseLine_agree {left right : LogGameState Stamp} (hand : Option Nat) (line : List Char)
    (following : List (List Char))
    (agree : left.players = right.players ∨ lib.evenhandedLines (line :: following) = true) :
    SameOutcome (lib.parseLine hand left line following).2
        (lib.parseLine hand right line following).2 ∧
      (left.players = right.players → (lib.parseLine hand left line following).1.players =
        (lib.parseLine hand right line following).1.players) := by
  unfold parseLine
  cases found : lib.linePattern.matchStart (Text.strip lib.space line) with
  | none => exact ⟨rfl, id⟩
  | some groups =>
      dsimp only
      split
      · exact ⟨trivial, id⟩
      · apply parseMessage_agree
        refine agree.imp_right fun evenhanded prompt named => ?_
        have message : lib.promptMessage line = some (groupText groups 2) := by
          unfold promptMessage
          rw [found]
          exact if_pos ⟨prompt, named⟩
        simp only [evenhandedLines, message, Option.all_some, Bool.and_eq_true] at evenhanded
        exact evenhanded.1

/-- Induction over the lines. The players of both sides stay the same as long as they are, and the
lines that remain are evenhanded if all were. -/
theorem parseLines_agree {left right : LogGameState Stamp} (hand : Option Nat)
    (lines : List (List Char))
    (agree : left.players = right.players ∨ lib.evenhandedLines lines = true) :
    (lib.parseLines hand left lines).events = (lib.parseLines hand right lines).events ∧
      (lib.parseLines hand left lines).currentHand =
        (lib.parseLines hand right lines).currentHand ∧
      (lib.parseLines hand left lines).raised.isSome =
        (lib.parseLines hand right lines).raised.isSome ∧
      (left.players = right.players → (lib.parseLines hand left lines).gameState.players =
        (lib.parseLines hand right lines).gameState.players) := by
  induction lines generalizing hand left right with
  | nil => exact ⟨rfl, rfl, rfl, id⟩
  | cons line following ih =>
      obtain ⟨outcome, players⟩ := parseLine_agree hand line following agree
      have later : left.players = right.players ∨ lib.evenhandedLines following = true :=
        agree.imp_right fun evenhanded => (Bool.and_eq_true_iff.mp evenhanded).2
      simp only [parseLines]
      generalize lib.parseLine hand left line following = one at outcome players ⊢
      generalize lib.parseLine hand right line following = other at outcome players ⊢
      obtain ⟨oneState, oneResult⟩ := one
      obtain ⟨otherState, otherResult⟩ := other
      cases oneResult with
      | error raised =>
          cases otherResult with
          | ok result => exact absurd outcome id
          | error _ => exact ⟨rfl, rfl, rfl, players⟩
      | ok result =>
          cases otherResult with
          | error raised => exact absurd outcome id
          | ok _ =>
              cases outcome
              obtain ⟨next, event⟩ := result
              cases event with
              | none =>
                  obtain ⟨events, hands, raised, kept⟩ := ih next (later.imp_left players)
                  exact ⟨events, hands, raised, fun same => kept (players same)⟩
              | some event =>
                  obtain ⟨noted, raised⟩ := @updateGameState_agree _ lib oneState otherState event
                  dsimp only
                  generalize lib.updateGameState oneState event = one at noted raised ⊢
                  generalize lib.updateGameState otherState event = other at noted raised ⊢
                  obtain ⟨oneNext, oneRaised⟩ := one
                  obtain ⟨otherNext, otherRaised⟩ := other
                  cases oneRaised <;> cases otherRaised
                  · obtain ⟨events, hands, raised, kept⟩ :=
                      ih next (later.imp_left fun same => noted (players same))
                    exact ⟨congrArg (event :: ·) events, hands, raised,
                      fun same => kept (noted (players same))⟩
                  · cases raised
                  · cases raised
                  · exact ⟨rfl, rfl, rfl, fun same => noted (players same)⟩

/-! ### Reading on behind a prompt -/

/-- A prompt that is closed, or followed by a log line, is not changed by what comes after. -/
theorem promptLines_append {openBraces : Int} {first second : List (List Char)}
    (closed : lib.promptOpen openBraces first = false ∨ lib.opensWithStamp second = true) :
    lib.promptLines openBraces (first ++ second) = lib.promptLines openBraces first := by
  induction first generalizing openBraces with
  | nil =>
      cases second with
      | nil => rfl
      | cons line rest =>
          simp only [List.nil_append, promptLines]
          split
          · rename_i opened
            rcases closed with shut | stamped
            · simp [promptOpen, opened] at shut
            · change lib.startsWithStamp (Text.strip lib.space line) = true at stamped
              rw [if_pos stamped]
          · rfl
  | cons next rest ih =>
      simp only [List.cons_append, promptLines]
      split
      · rename_i opened
        split
        · rfl
        · rename_i unstamped
          rw [ih]
          refine closed.imp_left fun shut => ?_
          simpa [promptOpen, opened, unstamped] using shut
      · rfl

/-- The lines after a message matter only to a prompt. -/
theorem parseMessage_following {hand : Option Nat} {state : LogGameState Stamp}
    {message logLevel : List Char} {timestamp : Stamp} {following other : List (List Char)}
    (same : messageBranch message logLevel = .llmPrompt →
      (lib.promptPattern.search message).isSome = true →
      lib.promptLines (braceCount message) following =
        lib.promptLines (braceCount message) other) :
    lib.parseMessage hand state message timestamp logLevel following =
      lib.parseMessage hand state message timestamp logLevel other := by
  unfold parseMessage
  cases branch : messageBranch message logLevel
  case llmPrompt =>
    dsimp only
    split
    · rfl
    · cases found : lib.promptPattern.search message with
      | none => rfl
      | some groups =>
          simp only [collectMultiLineJson, same branch (by rw [found]; rfl)]
  all_goals rfl

theorem parseLine_append {hand : Option Nat} {state : LogGameState Stamp} {line : List Char}
    {first second : List (List Char)}
    (closed : lib.unfinished (line :: first) = false ∨ lib.opensWithStamp second = true) :
    lib.parseLine hand state line (first ++ second) = lib.parseLine hand state line first := by
  unfold parseLine
  cases found : lib.linePattern.matchStart (Text.strip lib.space line) with
  | none => rfl
  | some groups =>
      dsimp only
      split
      · rfl
      · apply parseMessage_following
        intro prompt named
        have message : lib.promptMessage line = some (groupText groups 2) := by
          unfold promptMessage
          rw [found]
          exact if_pos ⟨prompt, named⟩
        apply promptLines_append
        refine closed.imp_left fun finished => ?_
        simp only [unfinished, message, Option.any_some, Bool.or_eq_false_iff] at finished
        exact finished.1

/-- Reading on after lines that are not left inside a prompt. -/
theorem parseLines_append {hand : Option Nat} {state : LogGameState Stamp}
    {first second : List (List Char)}
    (closed : lib.unfinished first = false ∨ lib.opensWithStamp second = true)
    (returns : (lib.parseLines hand state (first ++ second)).raised = none) :
    (lib.parseLines hand state first).raised = none ∧
      lib.parseLines hand state (first ++ second) =
        { lib.parseLines (lib.parseLines hand state first).currentHand
            (lib.parseLines hand state first).gameState second with
          events := (lib.parseLines hand state first).events ++
            (lib.parseLines (lib.parseLines hand state first).currentHand
              (lib.parseLines hand state first).gameState second).events } := by
  induction first generalizing hand state with
  | nil => exact ⟨rfl, rfl⟩
  | cons line rest ih =>
      have later : lib.unfinished rest = false ∨ lib.opensWithStamp second = true := by
        refine closed.imp_left fun finished => ?_
        exact (Bool.or_eq_false_iff.mp finished).2
      simp only [List.cons_append, parseLines, parseLine_append closed] at returns ⊢
      generalize lib.parseLine hand state line rest = parsed at returns ⊢
      obtain ⟨after, result⟩ := parsed
      cases result with
      | error raised => cases returns
      | ok result =>
          obtain ⟨next, event⟩ := result
          cases event with
          | none => exact ih later returns
          | some event =>
              dsimp only at returns ⊢
              generalize lib.updateGameState after event = updated at returns ⊢
              obtain ⟨noted, raised⟩ := updated
              cases raised with
              | some raised => cases returns
              | none =>
                  obtain ⟨returned, split⟩ := ih later returns
                  refine ⟨returned, ?_⟩
                  dsimp only
                  rw [split]
                  rfl

end PyLib

end Holdem
