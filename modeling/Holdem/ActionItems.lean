import Holdem.AgentProtocol
import Holdem.LogParser

set_option autoImplicit false

/- Both screens show the lines of `action_history` as items, told apart by regular
expressions. -/
namespace Holdem

/-- What `_create_action_history_item` makes of a line. Colours and badge texts follow from
the kind. -/
inductive HistoryItem
  | fold (pid : Int)
  | check (pid : Int)
  | call (pid amt : Int)
  | raise (pid toAmt : Int)
  | allIn (pid amt : Int)
  | smallBlind (pid amt : Int)
  | bigBlind (pid amt : Int)
  | flop (cards : List (List Char))
  | turn (card : List Char)
  | river (card : List Char)
  | generic (actionText : List Char)
deriving DecidableEq, Repr

def HistoryItem.pid : HistoryItem → Option Int
  | .fold pid => some pid
  | .check pid => some pid
  | .call pid _ => some pid
  | .raise pid _ => some pid
  | .allIn pid _ => some pid
  | .smallBlind pid _ => some pid
  | .bigBlind pid _ => some pid
  | .flop _ => none
  | .turn _ => none
  | .river _ => none
  | .generic _ => none

namespace PyText

variable (py : PyText)

/-- `(\d+)`. -/
def digitGroup : Regex := .group (.run py.isDigit false)

/-- `r"Player (\d+) …"` with these words. -/
def aboutPlayer (words : String) (item : Int → HistoryItem) (actionText : List Char) :
    Option HistoryItem :=
  ((Regex.seq (.text "Player ".toList)
      (.seq py.digitGroup (.text words.toList))).matchStart actionText).map
    fun groups => item (py.number (groupText groups 0))

/-- `r"Player (\d+) … (\d+)"` with these words between the numbers. -/
def aboutAmount (words : String) (item : Int → Int → HistoryItem) (actionText : List Char) :
    Option HistoryItem :=
  ((Regex.seq (.text "Player ".toList)
      (.seq py.digitGroup (.seq (.text words.toList) py.digitGroup))).matchStart actionText).map
    fun groups => item (py.number (groupText groups 0)) (py.number (groupText groups 1))

/-- `r"… dealt: (.+)"` with this street. -/
def aboutStreet (words : String) (item : List Char → HistoryItem) (actionText : List Char) :
    Option HistoryItem :=
  ((Regex.seq (.text words.toList) (.group (.run (· != '\n') false))).matchStart actionText).map
    fun groups => item (groupText groups 0)

def historyReaders : List (List Char → Option HistoryItem) :=
  [py.aboutPlayer " folded" .fold, py.aboutPlayer " checked" .check,
    py.aboutAmount " called " .call, py.aboutAmount " raised to " .raise,
    py.aboutAmount " went all-in with " .allIn,
    py.aboutAmount " posted small blind " .smallBlind,
    py.aboutAmount " posted big blind " .bigBlind,
    aboutStreet "Flop dealt: " fun cards =>
      .flop ((cards.splitOn ',').map (Text.strip py.space)),
    aboutStreet "Turn dealt: " fun card => .turn (Text.strip py.space card),
    aboutStreet "River dealt: " fun card => .river (Text.strip py.space card)]

def createActionHistoryItem (actionText : List Char) : HistoryItem :=
  (py.historyReaders.findSome? fun reader => reader actionText).getD (.generic actionText)

end PyText

/-! ### Reading a line -/

section Reading

variable {py : PyText}

theorem matchStart_player (digits : AsciiDigits py.alphabet) (count : Nat) {rest : List Char}
    {tail : Regex} (starts : ∀ input, tail.attempts input ≠ [] → input.head? = some ' ') :
    (Regex.seq (.text "Player ".toList) (.seq py.digitGroup tail)).matchStart
        ("Player ".toList ++ (count.repr.toList ++ ' ' :: rest)) =
      (tail.matchStart (' ' :: rest)).map fun groups => some count.repr.toList :: groups := by
  have stops : py.isDigit ' ' = false := by
    unfold PyText.isDigit
    rw [digits ' ' (by decide) rfl]
    rfl
  rw [Regex.matchStart_seq_text]
  exact Regex.matchStart_run_seq (repr_ne_nil count) (digits_pass py count) stops starts

theorem aboutPlayer_line (digits : AsciiDigits py.alphabet) (count : Nat) {rest word : List Char}
    {words : String} (spaced : words.toList = ' ' :: word) (item : Int → HistoryItem) :
    py.aboutPlayer words item ("Player ".toList ++ (count.repr.toList ++ ' ' :: rest)) =
      if words.toList.isPrefixOf (' ' :: rest) then some (item count) else none := by
  have starts : ∀ input, (Regex.text words.toList).attempts input ≠ [] →
      input.head? = some ' ' := by
    intro input tried
    obtain ⟨found, member⟩ := List.exists_mem_of_ne_nil _ tried
    rw [(Regex.mem_text.mp member).2, spaced]
    rfl
  unfold PyText.aboutPlayer
  rw [matchStart_player digits count starts, Regex.matchStart_text]
  split
  · show some (item (py.number count.repr.toList)) = _
    rw [number_repr]
  · rfl

theorem amount_starts {word : List Char} {words : String} (spaced : words.toList = ' ' :: word)
    (input : List Char) (tried : (Regex.seq (.text words.toList) py.digitGroup).attempts input ≠ []) :
    input.head? = some ' ' := by
  rw [spaced] at tried
  exact Regex.starts_of_seq_text tried

theorem aboutAmount_line (digits : AsciiDigits py.alphabet) (count amount : Nat)
    {word : List Char} {words : String} (spaced : words.toList = ' ' :: word)
    (item : Int → Int → HistoryItem) :
    py.aboutAmount words item ("Player ".toList ++
        (count.repr.toList ++ (words.toList ++ amount.repr.toList))) =
      some (item count amount) := by
  have number : (Regex.seq (.text words.toList) py.digitGroup).matchStart
      (words.toList ++ amount.repr.toList) = some [some amount.repr.toList] := by
    rw [Regex.matchStart_seq_text]
    have run := @Regex.firstAttempt_run py.isDigit amount.repr.toList [] (repr_ne_nil amount)
      (digits_pass py amount) fun _ head => by cases head
    rw [List.append_nil] at run
    exact Regex.matchStart_of_first run
  unfold PyText.aboutAmount
  have line : words.toList ++ amount.repr.toList = ' ' :: (word ++ amount.repr.toList) := by
    rw [spaced, List.cons_append]
  rw [line, matchStart_player digits count (amount_starts spaced), ← line, number]
  show some (item (py.number count.repr.toList) (py.number amount.repr.toList)) = _
  rw [number_repr, number_repr]

theorem aboutAmount_skip (digits : AsciiDigits py.alphabet) (count : Nat) {rest word : List Char}
    {words : String} (spaced : words.toList = ' ' :: word)
    (other : words.toList.isPrefixOf (' ' :: rest) = false) (item : Int → Int → HistoryItem) :
    py.aboutAmount words item ("Player ".toList ++ (count.repr.toList ++ ' ' :: rest)) = none := by
  have barren : (Regex.seq (.text words.toList) py.digitGroup).matchStart (' ' :: rest) = none := by
    cases found : (Regex.seq (.text words.toList) py.digitGroup).matchStart (' ' :: rest) with
    | none => rfl
    | some groups =>
        obtain ⟨left, tried⟩ := Regex.matchStart_mem found
        obtain ⟨behind, split, _⟩ := Regex.mem_seq_text.mp tried
        rw [split, List.isPrefixOf_iff_prefix.mpr (List.prefix_append ..)] at other
        cases other
  unfold PyText.aboutAmount
  rw [matchStart_player digits count (amount_starts spaced), barren]
  rfl

theorem aboutPlayer_foreign {line : List Char} (foreign : line.head? ≠ some 'P') (words : String)
    (item : Int → HistoryItem) : py.aboutPlayer words item line = none := by
  unfold PyText.aboutPlayer
  exact congrArg (Option.map _) (@Regex.matchStart_foreign 'P' "layer ".toList line _ foreign)

theorem aboutAmount_foreign {line : List Char} (foreign : line.head? ≠ some 'P') (words : String)
    (item : Int → Int → HistoryItem) : py.aboutAmount words item line = none := by
  unfold PyText.aboutAmount
  exact congrArg (Option.map _) (@Regex.matchStart_foreign 'P' "layer ".toList line _ foreign)

theorem aboutStreet_foreign {line word : List Char} {words : String} {sign : Char}
    (spelt : words.toList = sign :: word) (foreign : line.head? ≠ some sign)
    (item : List Char → HistoryItem) : PyText.aboutStreet words item line = none := by
  unfold PyText.aboutStreet
  rw [spelt, Regex.matchStart_foreign foreign]
  rfl

theorem aboutStreet_line {cards : List Char} (present : cards ≠ []) (oneLine : '\n' ∉ cards)
    (words : String) (item : List Char → HistoryItem) :
    PyText.aboutStreet words item (words.toList ++ cards) = some (item cards) := by
  have all : ∀ char ∈ cards, (char != '\n') = true := by
    intro char member
    rw [bne_iff_ne]
    rintro rfl
    exact oneLine member
  have run := @Regex.firstAttempt_run (· != '\n') cards [] present all fun _ head => by cases head
  rw [List.append_nil] at run
  unfold PyText.aboutStreet
  rw [Regex.matchStart_seq_text, Regex.matchStart_of_first run]
  rfl

/-! ### The item of each line -/

theorem item_read {line : List Char} {reader : List Char → Option HistoryItem} {item : HistoryItem}
    {before after : List (List Char → Option HistoryItem)}
    (listed : py.historyReaders = before ++ reader :: after)
    (skips : ∀ other ∈ before, other line = none) (read : reader line = some item) :
    py.createActionHistoryItem line = item := by
  unfold PyText.createActionHistoryItem
  rw [listed, List.findSome?_append, List.findSome?_eq_none_iff.mpr skips, List.findSome?_cons,
    read]
  rfl

def playerLine (count : Nat) (rest : List Char) : List Char :=
  "Player ".toList ++ (count.repr.toList ++ ' ' :: rest)

section Lines

variable (digits : AsciiDigits py.alphabet) (count amount : Nat)
include digits

theorem aboutPlayer_skip {rest word : List Char} {words : String}
    (spaced : words.toList = ' ' :: word) (other : word.isPrefixOf rest = false)
    (item : Int → HistoryItem) : py.aboutPlayer words item (playerLine count rest) = none := by
  refine (aboutPlayer_line digits count spaced item).trans (if_neg ?_)
  rw [spaced, List.isPrefixOf_cons_cons, other, Bool.and_false]
  exact Bool.false_ne_true

theorem amount_skip {rest word : List Char} {words : String}
    (spaced : words.toList = ' ' :: word) (other : word.isPrefixOf rest = false)
    (item : Int → Int → HistoryItem) : py.aboutAmount words item (playerLine count rest) = none := by
  apply aboutAmount_skip digits count spaced
  rw [spaced, List.isPrefixOf_cons_cons, other, Bool.and_false]

theorem item_fold :
    py.createActionHistoryItem (playerLine count "folded".toList) = .fold count := by
  refine @item_read py _ (py.aboutPlayer " folded" .fold) _ [] _ rfl nofun ?_
  exact aboutPlayer_line digits count rfl _

theorem item_check :
    py.createActionHistoryItem (playerLine count "checked".toList) = .check count := by
  refine @item_read py _ (py.aboutPlayer " checked" .check) _ [_] _ rfl ?_ ?_
  · exact List.forall_mem_singleton.mpr (aboutPlayer_skip digits count rfl rfl _)
  · exact aboutPlayer_line digits count rfl _

theorem item_call :
    py.createActionHistoryItem (playerLine count ("called ".toList ++ amount.repr.toList)) =
      .call count amount := by
  refine @item_read py _ (py.aboutAmount " called " .call) _ [_, _] _ rfl ?_ ?_
  · simp only [List.forall_mem_cons]
    exact ⟨aboutPlayer_skip digits count rfl rfl _, aboutPlayer_skip digits count rfl rfl _, nofun⟩
  · exact aboutAmount_line digits count amount rfl _

theorem item_raise :
    py.createActionHistoryItem (playerLine count ("raised to ".toList ++ amount.repr.toList)) =
      .raise count amount := by
  refine @item_read py _ (py.aboutAmount " raised to " .raise) _ [_, _, _] _ rfl ?_ ?_
  · simp only [List.forall_mem_cons]
    exact ⟨aboutPlayer_skip digits count rfl rfl _, aboutPlayer_skip digits count rfl rfl _,
      amount_skip digits count rfl rfl _, nofun⟩
  · exact aboutAmount_line digits count amount rfl _

theorem item_allIn :
    py.createActionHistoryItem
        (playerLine count ("went all-in with ".toList ++ amount.repr.toList)) =
      .allIn count amount := by
  refine @item_read py _ (py.aboutAmount " went all-in with " .allIn) _ [_, _, _, _] _ rfl ?_ ?_
  · simp only [List.forall_mem_cons]
    exact ⟨aboutPlayer_skip digits count rfl rfl _, aboutPlayer_skip digits count rfl rfl _,
      amount_skip digits count rfl rfl _, amount_skip digits count rfl rfl _, nofun⟩
  · exact aboutAmount_line digits count amount rfl _

theorem item_smallBlind :
    py.createActionHistoryItem
        (playerLine count ("posted small blind ".toList ++ amount.repr.toList)) =
      .smallBlind count amount := by
  refine @item_read py _ (py.aboutAmount " posted small blind " .smallBlind) _ [_, _, _, _, _] _
    rfl ?_ ?_
  · simp only [List.forall_mem_cons]
    exact ⟨aboutPlayer_skip digits count rfl rfl _, aboutPlayer_skip digits count rfl rfl _,
      amount_skip digits count rfl rfl _, amount_skip digits count rfl rfl _,
      amount_skip digits count rfl rfl _, nofun⟩
  · exact aboutAmount_line digits count amount rfl _

theorem item_bigBlind :
    py.createActionHistoryItem
        (playerLine count ("posted big blind ".toList ++ amount.repr.toList)) =
      .bigBlind count amount := by
  refine @item_read py _ (py.aboutAmount " posted big blind " .bigBlind) _ [_, _, _, _, _, _] _
    rfl ?_ ?_
  · simp only [List.forall_mem_cons]
    exact ⟨aboutPlayer_skip digits count rfl rfl _, aboutPlayer_skip digits count rfl rfl _,
      amount_skip digits count rfl rfl _, amount_skip digits count rfl rfl _,
      amount_skip digits count rfl rfl _, amount_skip digits count rfl rfl _, nofun⟩
  · exact aboutAmount_line digits count amount rfl _

end Lines

/-- A line that begins with no player is left to the three streets. -/
theorem player_readers_skip {line : List Char} (foreign : line.head? ≠ some 'P') :
    ∀ reader ∈ py.historyReaders.take 7, reader line = none := by
  simp only [PyText.historyReaders, List.take_succ_cons, List.take_zero, List.forall_mem_cons]
  exact ⟨aboutPlayer_foreign foreign _ _, aboutPlayer_foreign foreign _ _,
    aboutAmount_foreign foreign _ _, aboutAmount_foreign foreign _ _,
    aboutAmount_foreign foreign _ _, aboutAmount_foreign foreign _ _,
    aboutAmount_foreign foreign _ _, nofun⟩

theorem item_flop {cards : List Char} (present : cards ≠ []) (oneLine : '\n' ∉ cards) :
    py.createActionHistoryItem ("Flop dealt: ".toList ++ cards) =
      .flop ((cards.splitOn ',').map (Text.strip py.space)) :=
  item_read (@List.take_append_drop _ 7 py.historyReaders).symm
    (player_readers_skip fun head => by cases head)
    (aboutStreet_line present oneLine "Flop dealt: " _)

theorem item_turn {card : List Char} (present : card ≠ []) (oneLine : '\n' ∉ card) :
    py.createActionHistoryItem ("Turn dealt: ".toList ++ card) =
      .turn (Text.strip py.space card) := by
  refine @item_read py _ _ _ (py.historyReaders.take 7 ++ [_]) _ rfl ?_
    (aboutStreet_line present oneLine "Turn dealt: " _)
  intro reader member
  rcases List.mem_append.mp member with early | flop
  · exact player_readers_skip (fun head => by cases head) reader early
  · rw [List.mem_singleton.mp flop]
    exact aboutStreet_foreign rfl (fun head => by cases head) _

theorem item_river {card : List Char} (present : card ≠ []) (oneLine : '\n' ∉ card) :
    py.createActionHistoryItem ("River dealt: ".toList ++ card) =
      .river (Text.strip py.space card) := by
  refine @item_read py _ _ _ (py.historyReaders.take 7 ++ [_, _]) _ rfl ?_
    (aboutStreet_line present oneLine "River dealt: " _)
  intro reader member
  rcases List.mem_append.mp member with early | street
  · exact player_readers_skip (fun head => by cases head) reader early
  · rcases List.mem_pair.mp street with rfl | rfl
    · exact aboutStreet_foreign rfl (fun head => by cases head) _
    · exact aboutStreet_foreign rfl (fun head => by cases head) _

/-! ### Cards in a line -/

theorem joined_head (mark piece : List Char) (rest : List (List Char)) :
    ∃ more, mark.intercalate (piece :: rest) = piece ++ more := by
  cases rest with
  | nil => exact ⟨[], by rw [List.intercalate_singleton, List.append_nil]⟩
  | cons next later =>
      exact ⟨mark ++ mark.intercalate (next :: later), by
        rw [List.intercalate_cons_cons, List.append_assoc]⟩

theorem mem_joined {mark : List Char} {pieces : List (List Char)} {char : Char}
    (member : char ∈ mark.intercalate pieces) : char ∈ mark ∨ ∃ piece ∈ pieces, char ∈ piece := by
  induction pieces with
  | nil => cases member
  | cons piece rest ih =>
      cases rest with
      | nil =>
          rw [List.intercalate_singleton] at member
          exact Or.inr ⟨piece, List.mem_cons_self .., member⟩
      | cons next later =>
          rw [List.intercalate_cons_cons, List.mem_append, List.mem_append] at member
          rcases member with (first | between) | behind
          · exact Or.inr ⟨piece, List.mem_cons_self .., first⟩
          · exact Or.inl between
          · rcases ih behind with between | ⟨other, listed, inside⟩
            · exact Or.inl between
            · exact Or.inr ⟨other, List.mem_cons_of_mem _ listed, inside⟩

theorem splitOn_spaced (text : List Char) :
    ((' ' :: text).splitOn ',') = (text.splitOn ',').modifyHead (' ' :: ·) := by
  rw [List.splitOn_cons_eq_if_modifyHead, if_neg (by decide)]

/-- `", ".join` undone by `split(",")` and `strip`. -/
theorem strip_split_joined {space : Char → Bool} {pieces : List (List Char)}
    (some : pieces ≠ []) (blank : space ' ' = true)
    (plain : ∀ piece ∈ pieces, ∀ char ∈ piece, char ≠ ',' ∧ space char = false) :
    (([',', ' '].intercalate pieces).splitOn ',').map (Text.strip space) = pieces := by
  have whole : ∀ piece ∈ pieces, ',' ∉ piece := by
    intro piece member comma
    exact (plain piece member ',' comma).1 rfl
  have kept : ∀ piece ∈ pieces, Text.strip space piece = piece := by
    intro piece member
    exact Numeral.strip_eq_self fun char inside => (plain piece member char inside).2
  induction pieces with
  | nil => exact absurd rfl some
  | cons piece rest ih =>
      cases rest with
      | nil =>
          rw [List.intercalate_singleton, List.splitOn_eq_singleton (whole piece (List.mem_cons_self ..)),
            List.map_singleton, kept piece (List.mem_cons_self ..)]
      | cons next later =>
          have tail := ih (List.cons_ne_nil _ _)
            (fun other member => plain other (List.mem_cons_of_mem _ member))
            (fun other member => whole other (List.mem_cons_of_mem _ member))
            (fun other member => kept other (List.mem_cons_of_mem _ member))
          have spaced : ∀ pieces : List (List Char), (pieces.modifyHead (' ' :: ·)).map
              (Text.strip space) = pieces.map (Text.strip space) := by
            intro pieces
            cases pieces with
            | nil => rfl
            | cons first others =>
                rw [List.modifyHead_cons, List.map_cons, List.map_cons]
                unfold Text.strip
                rw [List.dropWhile_cons, if_pos blank]
          rw [List.intercalate_cons_cons, List.append_assoc, List.cons_append, List.singleton_append,
            List.splitOn_append_cons_self_of_not_mem (whole piece (List.mem_cons_self ..)),
            List.map_cons, kept piece (List.mem_cons_self ..), splitOn_spaced, spaced, tail]

/-- What the screens rely on: Python's digits and white space on ASCII, and that the symbols of
the suits are no white space. -/
structure PyText.Documented (py : PyText) : Prop where
  digits : AsciiDigits py.alphabet
  suits : ∀ suit : Suit, ∀ char ∈ suit.symbol.toList, py.space char = false

theorem card_plain (documented : py.Documented) (card : Card) :
    ∀ char ∈ card.str.toList, char ≠ ',' ∧ char ≠ '\n' ∧ py.space char = false := by
  have ranks : ∀ rank : Fin 15, ∀ char ∈ (rankName rank.val).toList,
      char ≠ ',' ∧ char ≠ '\n' ∧ char.val < 128 ∧ asciiSpaces.contains char = false := by decide
  have suits : ∀ suit : Suit, ∀ char ∈ suit.symbol.toList, char ≠ ',' ∧ char ≠ '\n' := by
    intro suit
    cases suit <;> decide
  intro char member
  unfold Card.str at member
  rw [String.toList_append] at member
  rcases List.mem_append.mp member with rank | suit
  · obtain ⟨comma, line, ascii, visible⟩ := ranks ⟨card.rank, by have := card.rank_le; omega⟩ char rank
    exact ⟨comma, line, (py.space_ascii char ascii).trans visible⟩
  · obtain ⟨comma, line⟩ := suits card.suit char suit
    exact ⟨comma, line, documented.suits card.suit char suit⟩

theorem card_ne_nil (card : Card) : card.str.toList ≠ [] := by
  unfold Card.str
  rw [String.toList_append]
  cases card.suit <;> simp [Suit.symbol]

/-- The flop is read card by card. -/
theorem item_flop_cards (documented : py.Documented) {board : List Card} (dealt : board ≠ []) :
    py.createActionHistoryItem ("Flop dealt: " ++ ", ".intercalate (board.map Card.str)).toList =
      .flop (board.map fun card => card.str.toList) := by
  have spelt : (", ".intercalate (board.map Card.str)).toList =
      [',', ' '].intercalate (board.map fun card => card.str.toList) := by
    rw [String.toList_intercalate, List.map_map]
    rfl
  have plain : ∀ piece ∈ board.map fun card => card.str.toList, ∀ char ∈ piece,
      char ≠ ',' ∧ char ≠ '\n' ∧ py.space char = false := by
    intro piece member
    obtain ⟨card, _, rfl⟩ := List.mem_map.mp member
    exact card_plain documented card
  have pieces : (board.map fun card => card.str.toList) ≠ [] := by simpa using dealt
  rw [String.toList_append, spelt]
  rw [item_flop]
  · congr 1
    apply strip_split_joined pieces
    · exact (py.space_ascii ' ' (by decide)).trans (by decide)
    · intro piece member char inside
      obtain ⟨comma, _, visible⟩ := plain piece member char inside
      exact ⟨comma, visible⟩
  · obtain ⟨card, rest, listed⟩ := List.exists_cons_of_ne_nil dealt
    obtain ⟨more, begun⟩ := joined_head [',', ' '] card.str.toList
      (rest.map fun other => other.str.toList)
    rw [listed, List.map_cons, begun]
    exact List.append_ne_nil_of_left_ne_nil (card_ne_nil card) more
  · intro member
    rcases mem_joined member with mark | ⟨piece, listed, inside⟩
    · exact absurd mark (by decide)
    · exact (plain piece listed _ inside).2.1 rfl

theorem item_last_card (documented : py.Documented) {board : List Card} (dealt : board ≠ []) :
    py.createActionHistoryItem ("Turn dealt: " ++ PokerGame.lastCard board).toList =
        .turn ((board.map fun card => card.str.toList).getLastD []) ∧
      py.createActionHistoryItem ("River dealt: " ++ PokerGame.lastCard board).toList =
        .river ((board.map fun card => card.str.toList).getLastD []) := by
  obtain ⟨front, card, rfl⟩ := (List.eq_nil_or_concat' board).resolve_left dealt
  have last : PokerGame.lastCard (front ++ [card]) = card.str := by
    unfold PokerGame.lastCard
    rw [List.getLast?_concat]
    rfl
  have shown : ((front ++ [card]).map fun card => card.str.toList).getLastD [] =
      card.str.toList := by
    rw [List.map_append, List.map_singleton, List.getLastD_concat]
  have plain := card_plain documented card
  have oneLine : '\n' ∉ card.str.toList := fun member => (plain _ member).2.1 rfl
  have kept : Text.strip py.space card.str.toList = card.str.toList :=
    Numeral.strip_eq_self fun char inside => (plain char inside).2.2
  rw [last, shown, String.toList_append, String.toList_append]
  constructor
  · exact (item_turn (card_ne_nil card) oneLine).trans (congrArg _ kept)
  · exact (item_river (card_ne_nil card) oneLine).trans (congrArg _ kept)

/-- Lines about a showdown pass no test. -/
theorem item_generic (rest : List Char) :
    py.createActionHistoryItem ('S' :: rest) = .generic ('S' :: rest) := by
  have nothing : py.historyReaders.findSome? (fun reader => reader ('S' :: rest)) = none := by
    rw [← List.take_append_drop 7 py.historyReaders, List.findSome?_append]
    rw [List.findSome?_eq_none_iff.mpr
      (@player_readers_skip py ('S' :: rest) fun head => by cases head), Option.none_or,
      List.findSome?_eq_none_iff]
    simp only [PyText.historyReaders, List.drop_succ_cons, List.drop_zero, List.forall_mem_cons]
    exact ⟨aboutStreet_foreign rfl (fun head => by cases head) _,
      aboutStreet_foreign rfl (fun head => by cases head) _,
      aboutStreet_foreign rfl (fun head => by cases head) _, nofun⟩
  unfold PyText.createActionHistoryItem
  rw [nothing]
  rfl

end Reading

end Holdem
