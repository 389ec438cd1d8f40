import Holdem.ApiPlayer

set_option autoImplicit false

/- An agent that reads the view from the message and answers in the documented format has
its decision played. -/
namespace Holdem

/-- Among the ASCII characters only the ten digits are digits. -/
def AsciiDigits (alphabet : Numeral.Alphabet) : Prop :=
  ∀ char, char.val < 128 → char.isDigit = false → alphabet.digit char = none

def AvailableAction.Counts : AvailableAction → Prop
  | .fold => True
  | .check => True
  | .call toCall => 0 ≤ toCall
  | .raise minimum => 0 ≤ minimum
  | .allIn chips => 0 ≤ chips

def AvailableAction.price : AvailableAction → Option Int
  | .call toCall => some toCall
  | _ => none

def AvailableAction.minimum : AvailableAction → Option Int
  | .raise minimum => some minimum
  | _ => none

/-! ### The listed texts are understood -/

section Listed

variable {py : PyText}

theorem ascii_of_digit {char : Char} (digit : char.isDigit = true) : char.val < 128 := by
  have low : char.toNat ≤ 57 := (Char.isDigit_iff_toNat.mp digit).2
  exact UInt32.lt_iff_toNat_lt.mpr (Nat.lt_of_le_of_lt low (by decide))

theorem lower_same (py : PyText) {text : List Char}
    (plain : ∀ char ∈ text, char.val < 128 ∧ char.toLower = char) : py.lower text = text := by
  rw [py.lower_ascii _ fun char member => (plain char member).1]
  conv_rhs => rw [← List.map_id text]
  exact List.map_congr_left fun char member => (plain char member).2

/-- A number in brackets behind some words, in lower case. -/
theorem lower_entry (py : PyText) (count : Nat) {words : List Char}
    (ascii : ∀ char ∈ words, char.val < 128 ∧ char.toLower = char) :
    py.lower (words ++ (count.repr.toList ++ [')'])) = words ++ (count.repr.toList ++ [')']) := by
  apply lower_same py
  intro char member
  rcases List.mem_append.mp member with word | rest
  · exact ascii char word
  · rcases List.mem_append.mp rest with digit | close
    · have plain := Numeral.isDigit_of_mem_repr digit
      refine ⟨ascii_of_digit plain, ?_⟩
      have range := (Char.isDigit_iff_toNat.mp plain).2
      unfold Char.toLower
      rw [dif_neg]
      intro upper
      have low := UInt32.le_iff_toNat_le.mp upper.1
      change 65 ≤ char.toNat at low
      change char.toNat ≤ 57 at range
      omega
    · rw [List.mem_singleton.mp close]
      decide

theorem number_repr (py : PyText) (count : Nat) : py.number count.repr.toList = count := by
  have folded : ∀ (digits : List Char) (total : Nat), (∀ char ∈ digits, char.isDigit = true) →
      digits.foldl (fun total char => total * 10 + (py.alphabet.digit char).getD 0) total =
        Nat.ofDigitChars 10 digits total := by
    intro digits
    induction digits with
    | nil => exact fun _ _ => rfl
    | cons char digits ih =>
        intro total plain
        rw [List.foldl_cons, py.alphabet.digit_ascii char (plain char (List.mem_cons_self ..)),
          Option.getD_some, Nat.ofDigitChars_cons, Nat.mul_comm]
        exact ih _ fun other member => plain other (List.mem_cons_of_mem _ member)
  unfold PyText.number
  rw [folded _ _ fun char member => Numeral.isDigit_of_mem_repr member, Nat.toList_repr,
    Nat.ofDigitChars_ten_toDigits]

/-- What follows the digits of a listed number is no digit. -/
theorem digits_stop (digits : AsciiDigits py.alphabet) (rest : List Char) :
    ∀ char ∈ (')' :: rest).head?, py.isDigit char = false := by
  intro char head
  cases head
  unfold PyText.isDigit
  rw [digits ')' (by decide) rfl]
  rfl

theorem digits_pass (py : PyText) (count : Nat) :
    ∀ char ∈ count.repr.toList, py.isDigit char = true := by
  intro char member
  unfold PyText.isDigit
  rw [py.alphabet.digit_ascii char (Numeral.isDigit_of_mem_repr member)]
  rfl

theorem repr_ne_nil (count : Nat) : count.repr.toList ≠ [] := by
  rw [Nat.toList_repr]
  exact Nat.toDigits_ne_nil

theorem not_mem_repr {char : Char} (count : Nat) (letter : char.isDigit = false) :
    char ∉ count.repr.toList := by
  intro member
  rw [Numeral.isDigit_of_mem_repr member] at letter
  cases letter

theorem callPattern_text (digits : AsciiDigits py.alphabet) (count : Nat) :
    py.callPattern.search ("call (".toList ++ (count.repr.toList ++ [')'])) =
      some [some count.repr.toList] := by
  have number : (Regex.seq (.group (.run py.isDigit false)) (.text [')'])).firstAttempt
      (count.repr.toList ++ [')']) = some ([some count.repr.toList], []) :=
    Regex.firstAttempt_seq (Regex.firstAttempt_run (repr_ne_nil count) (digits_pass py count)
      (digits_stop digits [])) (Regex.firstAttempt_text [')'] [])
  have bracket := Regex.firstAttempt_seq
    (Regex.firstAttempt_text ['('] (count.repr.toList ++ [')'])) number
  have once : '(' ∉ count.repr.toList ++ [')'] := by
    rw [List.mem_append, not_or]
    exact ⟨not_mem_repr count rfl, by decide⟩
  have star := @Regex.firstAttempt_star (· != '\n') false _ '(' [' '] _ (by decide) (by decide)
    once (fun input tried => @Regex.starts_of_seq_text '(' [] input
      (.seq (.group (.run py.isDigit false)) (.text [')'])) tried)
  exact Regex.search_of_match (Regex.matchStart_of_first (Regex.firstAttempt_seq
    (Regex.firstAttempt_text "call".toList _) (star.trans bracket)))

theorem raisePattern_text (digits : AsciiDigits py.alphabet) (count : Nat) :
    py.raisePattern.search ("raise (min ".toList ++ (count.repr.toList ++ [')'])) =
      some [some count.repr.toList] := by
  have number : (Regex.group (.run py.isDigit false)).firstAttempt
      (count.repr.toList ++ [')']) = some ([some count.repr.toList], [')']) :=
    Regex.firstAttempt_run (repr_ne_nil count) (digits_pass py count) (digits_stop digits [])
  have word := Regex.firstAttempt_seq
    (Regex.firstAttempt_text "min ".toList (count.repr.toList ++ [')'])) number
  have once : 'm' ∉ "in ".toList ++ (count.repr.toList ++ [')']) := by
    rw [List.mem_append, List.mem_append, not_or, not_or]
    exact ⟨by decide, not_mem_repr count rfl, by decide⟩
  have star := @Regex.firstAttempt_star (· != '\n') false _ 'm' [' ', '('] _ (by decide)
    (by decide) once (fun input tried => @Regex.starts_of_seq_text 'm' "in ".toList input
      (.group (.run py.isDigit false)) tried)
  exact Regex.search_of_match (Regex.matchStart_of_first (Regex.firstAttempt_seq
    (Regex.firstAttempt_text "raise".toList _) (star.trans word)))

/-- An entry whose text is some words and a number in brackets. -/
theorem text_counted {entry : AvailableAction} (counts : entry.Counts) :
    entry = .fold ∨ entry = .check ∨ ∃ count : Nat,
      (entry = .call count ∧ entry.text.toList =
        "call (".toList ++ (count.repr.toList ++ [')'])) ∨
      (entry = .raise count ∧ entry.text.toList =
        "raise (min ".toList ++ (count.repr.toList ++ [')'])) ∨
      (entry = .allIn count ∧ entry.text.toList =
        "all-in (".toList ++ (count.repr.toList ++ [')'])) := by
  cases entry with
  | fold => exact Or.inl rfl
  | check => exact Or.inr (Or.inl rfl)
  | call toCall =>
      obtain ⟨count, rfl⟩ := Int.eq_ofNat_of_zero_le counts
      exact Or.inr (Or.inr ⟨count, Or.inl ⟨rfl, RandomPlayer.text_call count⟩⟩)
  | raise minimum =>
      obtain ⟨count, rfl⟩ := Int.eq_ofNat_of_zero_le counts
      exact Or.inr (Or.inr ⟨count, Or.inr (Or.inl ⟨rfl, RandomPlayer.text_raise count⟩)⟩)
  | allIn chips =>
      obtain ⟨count, rfl⟩ := Int.eq_ofNat_of_zero_le counts
      exact Or.inr (Or.inr ⟨count, Or.inr (Or.inr ⟨rfl, RandomPlayer.text_allIn count⟩)⟩)

/-- A word is missing in the text of an entry that lacks one of its letters. -/
theorem not_about (py : PyText) {word words : List Char} (letter : Char) (count : Nat)
    (needed : letter ∈ word) (absent : letter ∉ words) (plain : letter.isDigit = false)
    (bracket : letter ≠ ')') (ascii : ∀ char ∈ words, char.val < 128 ∧ char.toLower = char) :
    Text.contains word (py.lower (words ++ (count.repr.toList ++ [')']))) = false := by
  rw [lower_entry py count ascii]
  apply Text.contains_eq_false needed
  rw [List.mem_append, List.mem_append, not_or, not_or, List.mem_singleton]
  exact ⟨absent, not_mem_repr count plain, bracket⟩

theorem not_about_bare (py : PyText) {word action : List Char} (promised : action ∈ promisedActions)
    (absent : Text.contains word action = false) :
    Text.contains word (py.lower action) = false := by
  rw [PyText.lower_promised py promised, absent]

theorem listedCall_texts (digits : AsciiDigits py.alphabet) {entries : List AvailableAction}
    (counts : ∀ entry ∈ entries, entry.Counts) :
    py.listedCall (entries.map fun entry => entry.text.toList) =
      (entries.findSome? AvailableAction.price).map Int.toNat := by
  induction entries with
  | nil => rfl
  | cons entry rest ih =>
      have later := ih fun other member => counts other (List.mem_cons_of_mem _ member)
      rw [List.map_cons, PyText.listedCall]
      rcases text_counted (counts entry (List.mem_cons_self ..)) with rfl | rfl |
        ⟨count, ⟨rfl, spelt⟩ | ⟨rfl, spelt⟩ | ⟨rfl, spelt⟩⟩
      · change (if Text.contains "call".toList (py.lower "fold".toList) then _ else _) = _
        rw [not_about_bare py (by decide) (by decide)]
        exact later
      · change (if Text.contains "call".toList (py.lower "check".toList) then _ else _) = _
        rw [not_about_bare py (by decide) (by decide)]
        exact later
      · have about : Text.contains "call".toList
            (py.lower ("call (".toList ++ (count.repr.toList ++ [')']))) = true := by
          rw [lower_entry py count (by decide)]
          exact Text.contains_append "call".toList (" (".toList ++ (count.repr.toList ++ [')']))
        rw [spelt, if_pos about, callPattern_text digits]
        show some (py.number (groupText [some count.repr.toList] 0)) = some count
        exact congrArg some (number_repr py count)
      · rw [spelt, not_about py 'c' count (by decide) (by decide) rfl (by decide)
          (by decide)]
        exact later
      · rw [spelt, not_about py 'c' count (by decide) (by decide) rfl (by decide)
          (by decide)]
        exact later

theorem minRaise_texts (digits : AsciiDigits py.alphabet) {entries : List AvailableAction}
    (counts : ∀ entry ∈ entries, entry.Counts) :
    py.minRaise (entries.map fun entry => entry.text.toList) =
      ((entries.findSome? AvailableAction.minimum).map Int.toNat).getD 0 := by
  induction entries with
  | nil => rfl
  | cons entry rest ih =>
      have later := ih fun other member => counts other (List.mem_cons_of_mem _ member)
      rw [List.map_cons, PyText.minRaise]
      rcases text_counted (counts entry (List.mem_cons_self ..)) with rfl | rfl |
        ⟨count, ⟨rfl, spelt⟩ | ⟨rfl, spelt⟩ | ⟨rfl, spelt⟩⟩
      · change (if Text.contains "raise".toList (py.lower "fold".toList) then _ else _) = _
        rw [not_about_bare py (by decide) (by decide)]
        exact later
      · change (if Text.contains "raise".toList (py.lower "check".toList) then _ else _) = _
        rw [not_about_bare py (by decide) (by decide)]
        exact later
      · rw [spelt, not_about py 'r' count (by decide) (by decide) rfl (by decide)
          (by decide)]
        exact later
      · have about : Text.contains "raise".toList
            (py.lower ("raise (min ".toList ++ (count.repr.toList ++ [')']))) = true := by
          rw [lower_entry py count (by decide)]
          exact Text.contains_append "raise".toList
            (" (min ".toList ++ (count.repr.toList ++ [')']))
        rw [spelt, if_pos about, raisePattern_text digits]
        show py.number (groupText [some count.repr.toList] 0) = count
        exact number_repr py count
      · rw [spelt, not_about py 'r' count (by decide) (by decide) rfl (by decide)
          (by decide)]
        exact later

end Listed

/-! ### The answer of an agent -/

/-- What an agent decides: a promised action, an amount, and its reasoning without a closing
brace. -/
structure AgentReply where
  action : List Char
  amount : Nat
  reasoning : List Char
  promised : action ∈ promisedActions
  unbraced : '\x7d' ∉ reasoning

def AgentReply.toDict (reply : AgentReply) : Json :=
  .dict [("action".toList, .str reply.action), ("amount".toList, .int reply.amount),
    ("reasoning".toList, .str reply.reasoning)]

theorem AgentReply.toDict_plain (reply : AgentReply) : reply.toDict.Plain := by
  simp only [AgentReply.toDict, Json.Plain, Json.PlainMembers, and_true, List.map_cons,
    List.map_nil]
  decide

theorem colon : ": ".toList = [':', ' '] := rfl

theorem member_written (layout : Json.Layout) {white after : List Char} (key : List Char)
    {text : List Char} {value : Json} (blank : Json.Blank white) (last : Json.Blank after)
    (element : Json.Denotes text value) :
    Json.Member (white ++ (Json.quoted layout.ensureAscii key ++ (": ".toList ++ (text ++ after))))
      (key, value) := by
  have space : Json.Blank [' '] := by
    unfold Json.Blank
    decide
  have nothing : Json.Blank [] := fun _ member => by cases member
  have member := Json.Member.pair blank (Json.spells_escape layout.ensureAscii key) nothing space
    element last
  simpa only [Json.quoted, colon, List.append_assoc, List.cons_append, List.nil_append]
    using member

theorem AgentReply.answerText (layout : Json.Layout) (reply : AgentReply) :
    AnswerText reply.action reply.amount reply.reasoning
      (reply.reasoning.flatMap (Json.escape layout.ensureAscii))
      (Json.dumps layout 0 reply.toDict) := by
  obtain ⟨space, comma, between⟩ := Json.comma_eq layout 1
  have nothing : Json.Blank [] := fun _ member => by cases member
  have opening := Json.blank_gap layout 1
  have closing := Json.blank_gap layout 0
  have named := member_written layout "action".toList opening nothing
    (.str (Json.spells_escape layout.ensureAscii reply.action))
  have counted := member_written layout "amount".toList between nothing
    (@Json.Denotes.int _ (reply.amount : Int) (Or.inl rfl))
  have blank : Json.Blank [' '] := by
    unfold Json.Blank
    decide
  have argued : ArguesFor (reply.reasoning.flatMap (Json.escape layout.ensureAscii))
      reply.reasoning (space ++ (Json.quoted layout.ensureAscii "reasoning".toList ++
        (": ".toList ++ (Json.quoted layout.ensureAscii reply.reasoning ++
          layout.gap 0)))) := by
    refine ⟨Json.spells_escape _ _, space, _, [], [' '], layout.gap 0, between,
      Json.spells_escape layout.ensureAscii _, nothing, blank, closing, ?_⟩
    simp only [Json.quoted, colon, List.append_assoc, List.cons_append, List.nil_append]
  refine ⟨_, _, _, _, _, _, List.Perm.refl _, named, counted, argued, ?_⟩
  simp only [Json.dumps, AgentReply.toDict, Json.dumpsMembers, comma, Json.quoted, colon,
    List.append_assoc, List.cons_append, List.nil_append, List.append_nil]

/-- An agent behind a server: what it decides on a view, how `json.dumps` writes its answers, in
a fence or not, how the server writes its responses, and the events before the answer. -/
structure Agent where
  policy : LooseGameState → AgentReply
  answers : Json.Layout
  fenced : Bool
  responses : Json.Layout
  earlier : List Json
  plain : Json.PlainItems earlier

def Agent.answer (agent : Agent) (view : LooseGameState) : List Char :=
  let text := Json.dumps agent.answers 0 (agent.policy view).toDict
  if agent.fenced then "```json\n".toList ++ (text ++ "\n```".toList) else text

def answerEvent (text : List Char) : Json :=
  .dict [("content".toList, .dict [("parts".toList, .list [.dict [("text".toList, .str text)]])])]

/-- The server reads the view from the message, and sends the agent's answer as the last of
its events. -/
def Agent.serve (py : PyText) (float : List Char → Float64) (agent : Agent) : AgentServer where
  session := .through
  run message :=
    match (Json.loads float message).bind (LooseGameState.fromDict py) with
    | none => .response 422 []
    | some view =>
        .response 200 (Json.dumps agent.responses 0
          (.list (agent.earlier ++ [answerEvent (agent.answer view)])))

/-- The decision that a reply stands for, given the list it was made from. -/
def AgentReply.meant (entries : List AvailableAction) (chips : Int) (reply : AgentReply) :
    Decision :=
  match Action.ofText reply.action with
  | .call => ⟨.call, (entries.findSome? AvailableAction.price).getD reply.amount⟩
  | .raise => ⟨.raise, max ((entries.findSome? AvailableAction.minimum).getD 0) reply.amount⟩
  | .allIn => ⟨.allIn, chips⟩
  | action => ⟨action, 0⟩

/-! ### The decision arrives -/

theorem Agent.replyText_serve (float : List Char → Float64) (agent : Agent) (text : List Char) :
    replyText float (Json.dumps agent.responses 0
      (.list (agent.earlier ++ [answerEvent text]))) = some (.str text) := by
  have event : (answerEvent text).Plain := by
    simp [answerEvent, Json.Plain, Json.PlainItems, Json.PlainMembers]
  have plain : (Json.list (agent.earlier ++ [answerEvent text])).Plain := by
    simp only [Json.Plain]
    rw [Json.plainItems_iff]
    intro item member
    rcases List.mem_append.mp member with before | last
    · exact Json.plainItems_iff.mp agent.plain item before
    · rw [List.mem_singleton.mp last]
      exact event
  unfold replyText
  rw [Json.loads_dumps _ float plain, Option.bind_some, lastOf, List.getLast?_append_of_ne_nil _
    (List.cons_ne_nil _ _)]
  rfl

theorem Agent.delivered (agent : Agent) (view : LooseGameState) :
    Delivered (Json.dumps agent.answers 0 (agent.policy view).toDict) (agent.answer view) := by
  have nothing : Json.Blank [] := fun _ member => by cases member
  unfold Agent.answer
  cases agent.fenced with
  | false =>
      have bare := @Delivered.bare (Json.dumps agent.answers 0 (agent.policy view).toDict) [] []
        nothing nothing
      rw [List.append_nil] at bare
      exact bare
  | true =>
      have fenced := @Delivered.fenced (Json.dumps agent.answers 0 (agent.policy view).toDict) []
        [] nothing nothing
      rw [List.append_nil] at fenced
      exact fenced

theorem AgentReply.keyed (layout : Json.Layout) (reply : AgentReply) :
    quotedAction <:+: Json.dumps layout 0 reply.toDict := by
  have written : Json.quoted layout.ensureAscii "action".toList = quotedAction := by
    cases layout.ensureAscii <;> rfl
  simp only [AgentReply.toDict, Json.dumps, written, List.append_assoc]
  exact List.infix_cons ((List.prefix_append _ _).isInfix.trans (List.suffix_append _ _).isInfix)

/-- A dictionary whose action is a text leaves its reasoning, whatever becomes of the rest. -/
theorem readDecision_reasoning (py : PyText) (chips : Int) (actions : List (List Char))
    {entries : List (List Char × Json)} {text : List Char} {reasoning : Json}
    (action : entries.lookup "action".toList = some (.str text))
    (spoken : entries.lookup "reasoning".toList = some reasoning) :
    (py.readDecision chips actions (.dict entries)).2 = some reasoning := by
  unfold PyText.readDecision
  simp only [action, spoken, Option.getD_some]
  split
  · rfl
  · split <;> rfl

/-- The answer of an agent is read as its decision, and its reasoning is kept. -/
theorem parse_answer (py : PyText) (float : List Char → Float64) (agent : Agent)
    (view : LooseGameState) (chips : Int) (actions : List (List Char)) (lastReasoning : Json) :
    py.parseLlmResponse (Json.loads float) chips actions (some lastReasoning)
        (agent.answer view) =
      ⟨.ok ⟨(agent.policy view).action, py.normalisedAmount chips actions
        (agent.policy view).action (agent.policy view).amount⟩,
        some (.str (agent.policy view).reasoning)⟩ := by
  have delivered := agent.delivered view
  have loaded := Json.loads_dumps agent.answers float (agent.policy view).toDict_plain
  have keyed := (agent.policy view).keyed agent.answers
  have answer := (agent.policy view).answerText agent.answers
  generalize agent.policy view = reply at delivered loaded keyed answer
  have clean := Json.brace_not_mem_escape agent.answers.ensureAscii reply.unbraced
  have newline := answer.spells.no_newline
  obtain ⟨front, back, opens, closes, framed⟩ := answer.framed reply.promised
  rw [framed] at delivered loaded keyed
  obtain ⟨before, after, white, blank, cleaned⟩ :=
    PyText.cleanedResponse_delivered py opens closes newline delivered
  have cut : py.jsonStr (agent.answer view) = some (around front
      (reply.reasoning.flatMap (Json.escape agent.answers.ensureAscii)) back) := by
    unfold PyText.jsonStr
    rw [cleaned, PyText.cut_whole white opens closes clean keyed]
    rfl
  have read := PyText.readDecision_answer py chips actions reply.promised
    (List.Perm.refl [("action".toList, Json.str reply.action), ("amount".toList, .int reply.amount),
      ("reasoning".toList, .str reply.reasoning)])
  have kept : (py.readDecision chips actions reply.toDict).2 =
      some (.str reply.reasoning) := readDecision_reasoning py chips actions rfl rfl
  unfold PyText.parseLlmResponse
  simp only [cut, loaded]
  change (py.readDecision chips actions reply.toDict).1 = _ at read
  rw [read, kept]
  rfl

section Meant

variable {table : Table} {game : PokerGame} {player : Player}

theorem listed_counts (seated : Seated table game) (turn : game.Turn player)
    (blind : 0 < game.bigBlind) (bet : 0 ≤ game.currentBet) :
    ∀ entry ∈ game.getAvailableActions player.id, entry.Counts := by
  intro entry member
  rcases (PokerGame.mem_available seated turn).mp member with rfl | ⟨rfl, _⟩ | ⟨rfl, owing, _⟩ |
    ⟨rfl, _⟩ | ⟨rfl, chips, _⟩
  · trivial
  · trivial
  · exact Int.le_of_lt owing
  · exact Int.le_of_lt (PokerGame.minRaiseTotal_pos blind bet)
  · exact Int.le_of_lt chips

theorem counted_again {entries : List AvailableAction} {amount : AvailableAction → Option Int}
    (counts : ∀ entry ∈ entries, ∀ number, amount entry = some number → 0 ≤ number)
    (fallback : Nat) :
    (((entries.findSome? amount).map Int.toNat).getD fallback : Nat) =
      (entries.findSome? amount).getD (fallback : Int) := by
  cases found : entries.findSome? amount with
  | none => rfl
  | some number =>
      obtain ⟨entry, member, named⟩ := List.exists_of_findSome?_eq_some found
      exact Int.toNat_of_nonneg (counts entry member number named)

theorem normalised_meant {py : PyText} (digits : AsciiDigits py.alphabet)
    {entries : List AvailableAction} (counts : ∀ entry ∈ entries, entry.Counts) (chips : Int)
    (reply : AgentReply) :
    (⟨.ofText reply.action, py.normalisedAmount chips
        (entries.map fun entry => entry.text.toList) reply.action reply.amount⟩ : Decision) =
      reply.meant entries chips := by
  have prices : ∀ entry ∈ entries, ∀ number, AvailableAction.price entry = some number →
      0 ≤ number := by
    intro entry member number named
    have fits := counts entry member
    cases entry <;> cases named
    exact fits
  have minimums : ∀ entry ∈ entries, ∀ number, AvailableAction.minimum entry = some number →
      0 ≤ number := by
    intro entry member number named
    have fits := counts entry member
    cases entry <;> cases named
    exact fits
  have promised := reply.promised
  simp only [promisedActions, List.mem_cons, List.not_mem_nil, or_false] at promised
  unfold AgentReply.meant PyText.normalisedAmount
  rcases promised with action | action | action | action | action
  · rw [action]
    rfl
  · rw [action]
    rfl
  · rw [action, if_pos rfl, listedCall_texts digits counts, counted_again prices]
    rfl
  · have other : "raise".toList ≠ "call".toList := by decide
    have again := counted_again minimums 0
    rw [action, if_neg other, if_pos rfl, minRaise_texts digits counts]
    show (⟨.raise, _⟩ : Decision) = ⟨.raise, max ((entries.findSome? AvailableAction.minimum).getD
      ((0 : Nat) : Int)) reply.amount⟩
    congr 1
    omega
  · rw [action]
    rfl

theorem meant_listed (seated : Seated table game) (turn : game.Turn player) (reply : AgentReply)
    {entry : AvailableAction} (member : entry ∈ game.getAvailableActions player.id)
    (kind : Action.ofText reply.action = RandomPlayer.kind entry) :
    game.isListed player.id (reply.meant (game.getAvailableActions player.id) player.chips) =
      true := by
  refine PokerGame.isListed_iff.mpr ⟨entry, member, ?_⟩
  unfold AgentReply.meant
  rw [kind]
  cases entry with
  | raise minimum =>
      have named : (game.getAvailableActions player.id).findSome? AvailableAction.minimum =
          some minimum := by
        cases found : (game.getAvailableActions player.id).findSome? AvailableAction.minimum with
        | none =>
            have nothing := List.findSome?_eq_none_iff.mp found _ member
            cases nothing
        | some other =>
            obtain ⟨entry, inside, same⟩ := List.exists_of_findSome?_eq_some found
            rcases (PokerGame.mem_available seated turn).mp inside with rfl | ⟨rfl, _⟩ |
              ⟨rfl, _⟩ | ⟨rfl, _⟩ | ⟨rfl, _⟩
            all_goals cases same
            rcases (PokerGame.mem_available seated turn).mp member with equal | ⟨equal, _⟩ |
              ⟨equal, _⟩ | ⟨equal, _⟩ | ⟨equal, _⟩
            all_goals cases equal
            rfl
      rw [named]
      simp [RandomPlayer.kind, RandomPlayer.answer, AvailableAction.admits]
  | fold => rfl
  | check => rfl
  | call toCall => rfl
  | allIn chips => rfl

end Meant

/-- An agent behind the server is sent the view of the player to act, and its decision comes
back as it was meant, with its reasoning; of a listed kind it is a listed decision. -/
theorem agent_decides_as_meant (table : Table) (events : List DriverEvent) (state : DriverState)
    (player : Player) (py : PyText) (spell : Float64 → List Char)
    (float : List Char → Float64) (agent : Agent) (lastReasoning : Json) (draws : Draws)
    (blind : 0 < table.bigBlind) (digits : AsciiDigits py.alphabet)
    (played : Runs.run driverStep table.start events = some state)
    (stage : state.stage = .inHand) (turn : state.game.Turn player) :
    ∃ view, state.game.getLlmGameState player.id = .ok view ∧
      LLMApiPlayer.makeDecision py spell float (agent.serve py float) player.chips lastReasoning
          view draws =
        some ⟨.ok ((agent.policy view.loose).meant (state.game.getAvailableActions player.id)
          player.chips), .str (agent.policy view.loose).reasoning⟩ ∧
      ∀ entry ∈ state.game.getAvailableActions player.id,
        Action.ofText (agent.policy view.loose).action = RandomPlayer.kind entry →
        state.game.isListed player.id ((agent.policy view.loose).meant
          (state.game.getAvailableActions player.id) player.chips) = true := by
  have reached := table.reached played
  have big : 0 < state.game.bigBlind := reached.seated.blinds.2 ▸ blind
  have counts := listed_counts reached.seated turn big (reached.inPlay stage).bet
  obtain ⟨view, seen, lists⟩ := PokerGame.getLlmGameState_turn reached.seated turn
  refine ⟨view, seen, ?_, fun entry member => meant_listed reached.seated turn _ member⟩
  have served : (agent.serve py float).run (view.message spell) =
      .response 200 (Json.dumps agent.responses 0
        (.list (agent.earlier ++ [answerEvent (agent.answer view.loose)]))) := by
    unfold Agent.serve GameState.message
    dsimp only
    rw [Json.loads_dumps _ float view.toDict_plain, Option.bind_some, fromDict_toDict]
  have texts : view.actions.map String.toList =
      (state.game.getAvailableActions player.id).map fun entry => entry.text.toList := by
    rw [lists, List.map_map]
    rfl
  have meant := normalised_meant digits counts player.chips (agent.policy view.loose)
  unfold LLMApiPlayer.makeDecision
  rw [show (agent.serve py float).session = .through from rfl, served]
  dsimp only
  rw [if_neg (by decide), agent.replyText_serve]
  dsimp only
  rw [texts, parse_answer]
  dsimp only
  rw [← meant]
  rfl

/-- An agent that raises to 30 whatever it is told, in a fence. -/
def smallRaiser : Agent where
  policy _ := ⟨"raise".toList, 30, "top pair".toList, by decide, by decide⟩
  answers := ⟨some 2, false, fun _ => []⟩
  fenced := true
  responses := ⟨none, true, fun _ => []⟩
  earlier := []
  plain := trivial

theorem agent_decides_as_meant_raise :
    ∃ state player view, Runs.run driverStep headsUp.start [.newHand .unshuffled] = some state ∧
      state.game.Turn player ∧ state.game.getLlmGameState player.id = .ok view ∧
      LLMApiPlayer.makeDecision .ascii (fun _ => []) (fun _ => .nan)
          (smallRaiser.serve .ascii fun _ => .nan) player.chips .null view ⟨fun _ => 0, 0⟩ =
        some ⟨.ok ⟨.raise, 40⟩, strValue "top pair"⟩ := by
  have reached : ∃ state player,
      Runs.run driverStep headsUp.start [.newHand .unshuffled] = some state ∧
      state.stage = .inHand ∧ state.game.Turn player ∧
      state.game.getAvailableActions player.id = [.fold, .call 10, .raise 40, .allIn 90] :=
    ⟨_, _, rfl, rfl, ⟨rfl, rfl⟩, rfl⟩
  obtain ⟨state, player, played, stage, turn, available⟩ := reached
  have digits : AsciiDigits Numeral.Alphabet.ascii :=
    fun char _ other => if_neg (by rw [other]; decide)
  obtain ⟨view, seen, decided, _⟩ := agent_decides_as_meant headsUp [.newHand .unshuffled] state
    player .ascii (fun _ => []) (fun _ => .nan) smallRaiser .null ⟨fun _ => 0, 0⟩ (by decide)
    digits played stage turn
  rw [available] at decided
  exact ⟨state, player, view, played, turn, seen, decided⟩

end Holdem
