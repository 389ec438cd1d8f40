import Holdem.AnswerTotal

set_option autoImplicit false

/- Whether an answer in the documented format comes back as the decision it was written
for. -/
namespace Holdem

def quotedAction : List Char := "\"action\"".toList

/-- The member of the reasoning, with its text as it stands between the quotes. -/
def ArguesFor (raw reasoning member : List Char) : Prop :=
  Json.Spells raw reasoning ∧ ∃ before key gap later after, Json.Blank before ∧
    Json.Spells key "reasoning".toList ∧ Json.Blank gap ∧ Json.Blank later ∧ Json.Blank after ∧
    member = before ++ '"' :: key ++ '"' :: gap ++ ':' :: later ++ ('"' :: (raw ++ ['"'])) ++ after

/-- A JSON text of the three fields in any order. -/
def AnswerText (action : List Char) (amount : Nat) (reasoning raw text : List Char) : Prop :=
  ∃ named counted argued first second third, [first, second, third].Perm [named, counted, argued] ∧
    Json.Member named ("action".toList, .str action) ∧
    Json.Member counted ("amount".toList, .int amount) ∧ ArguesFor raw reasoning argued ∧
    text = '\x7b' :: (first ++ ',' :: (second ++ ',' :: third) ++ ['\x7d'])

/-- A response that is the text alone, or the text in a fence on lines of its own. -/
inductive Delivered (text : List Char) : List Char → Prop
  | bare {before after : List Char} (white : Json.Blank before) (blank : Json.Blank after) :
      Delivered text (before ++ (text ++ after))
  | fenced {before after : List Char} (white : Json.Blank before) (blank : Json.Blank after) :
      Delivered text (before ++ ("```json\n".toList ++ (text ++ ("\n```".toList ++ after))))

def PyText.normalisedAmount (py : PyText) (chips : Int) (actions : List (List Char))
    (action : List Char) (amount : Nat) : Int :=
  if action = "call".toList then ((py.listedCall actions).getD amount : Nat)
  else if action = "raise".toList then (max (py.minRaise actions) amount : Nat)
  else if action = "all_in".toList then chips
  else 0

/-! ### The shape of an answer -/

def marks : List Char := ['\x7b', '\x7d', '`']

/-- A text without marks that leaves the quotes closed. -/
structure Plain (text : List Char) : Prop where
  unmarked : ∀ sign ∈ marks, sign ∉ text
  closed : Json.scan .outside text = .outside

theorem Plain.append {first second : List Char} (plain : Plain first) (other : Plain second) :
    Plain (first ++ second) := by
  constructor
  · intro sign mark
    rw [List.mem_append, not_or]
    exact ⟨plain.unmarked sign mark, other.unmarked sign mark⟩
  · rw [Json.scan_append, plain.closed, other.closed]

theorem Plain.blank {text : List Char} (blank : Json.Blank text) : Plain text := by
  constructor
  · intro sign mark member
    have apart : ∀ sign ∈ marks, sign ∉ [' ', '\t', '\n', '\r'] := by decide
    exact apart sign mark (blank sign member)
  · exact Json.scan_bare blank.bare

theorem spells_unmarked {raw word : List Char} (spells : Json.Spells raw word)
    (unmarked : ∀ sign ∈ marks, sign ∉ word) : ∀ sign ∈ marks, sign ∉ raw := by
  have foreign : ∀ sign ∈ marks, sign ≠ '\\' ∧ Json.shortEscape sign = none ∧ sign ≠ 'u' ∧
      Json.hexDigit sign = none := by decide
  intro sign mark
  obtain ⟨slash, letter, unit, digit⟩ := foreign sign mark
  exact spells.not_mem slash letter unit digit fun _ => unmarked sign mark

theorem Plain.quoted {raw word : List Char} (spells : Json.Spells raw word)
    (unmarked : ∀ sign ∈ marks, sign ∉ word) : Plain ('"' :: (raw ++ ['"'])) := by
  constructor
  · intro sign mark
    have apart : ∀ sign ∈ marks, sign ≠ '"' := by decide
    rw [List.mem_cons, List.mem_append, List.mem_singleton, not_or, not_or]
    exact ⟨apart sign mark, spells_unmarked spells unmarked sign mark, apart sign mark⟩
  · show Json.scan .inside (raw ++ ['"']) = .outside
    rw [Json.scan_append, spells.scan]
    rfl

theorem Plain.number {text : List Char} {value : Int} (literal : Json.IntText text value) :
    Plain text := by
  constructor
  · intro sign mark member
    have foreign : ∀ sign ∈ marks, sign.isDigit = false ∧ sign ≠ '-' ∧ sign ∉ "-0".toList := by
      decide
    obtain ⟨digit, minus, zero⟩ := foreign sign mark
    rcases literal with rfl | ⟨rfl, _⟩
    · rcases Numeral.mem_toString member with spelt | spelt
      · rw [spelt] at digit
        cases digit
      · exact minus spelt
    · exact zero member
  · exact Json.scan_bare literal.bare

theorem Plain.key {before raw word gap later : List Char} (white : Json.Blank before)
    (spells : Json.Spells raw word) (blank : Json.Blank gap) (space : Json.Blank later)
    (unmarked : ∀ sign ∈ marks, sign ∉ word) :
    Plain (before ++ '"' :: raw ++ '"' :: gap ++ ':' :: later) := by
  have colon : Plain [':'] := ⟨by decide, rfl⟩
  have parts := (((Plain.blank white).append (Plain.quoted spells unmarked)).append
    (Plain.blank blank)).append (colon.append (Plain.blank space))
  simpa only [List.append_assoc, List.cons_append, List.nil_append] using parts

theorem Plain.member {member word : List Char} {value : Json}
    (pair : Json.Member member (word, value)) (unmarked : ∀ sign ∈ marks, sign ∉ word)
    (plain : ∀ text, Json.Denotes text value → Plain text) : Plain member := by
  cases pair with
  | pair white name blank space element last =>
      exact ((Plain.key white name blank space unmarked).append (plain _ element)).append
        (Plain.blank last)

theorem Plain.named {named action : List Char} (promised : action ∈ promisedActions)
    (pair : Json.Member named ("action".toList, .str action)) : Plain named := by
  have clean : ∀ action ∈ promisedActions, ∀ sign ∈ marks, sign ∉ action := by decide
  apply Plain.member pair (by decide)
  intro text denotes
  cases denotes with
  | str literal => exact Plain.quoted literal (clean action promised)

theorem Plain.counted {counted : List Char} {amount : Nat}
    (pair : Json.Member counted ("amount".toList, .int amount)) : Plain counted := by
  apply Plain.member pair (by decide)
  intro text denotes
  cases denotes with
  | int literal => exact Plain.number literal

/-- What stands beside one of three members is what stands beside it in another order. -/
theorem others_of_perm {Value : Type} {left right : List Value} {one two three : Value}
    (order : (left ++ three :: right).Perm [one, two, three]) :
    ∀ other ∈ left ++ right, other = one ∨ other = two := by
  have moved : (three :: (left ++ right)).Perm (three :: [one, two]) :=
    (List.perm_middle.symm.trans order).trans (@List.perm_middle _ three [one, two] [])
  intro other member
  have same := (List.perm_cons three).mp moved
  simpa only [List.mem_cons, List.not_mem_nil, or_false] using same.mem_iff.mp member

def around (front raw back : List Char) : List Char :=
  '\x7b' :: (front ++ '"' :: (raw ++ '"' :: (back ++ ['\x7d'])))

/-- The text of the reasoning is all of an answer that is not plain. -/
theorem AnswerText.framed {action reasoning raw text : List Char} {amount : Nat}
    (promised : action ∈ promisedActions) (answer : AnswerText action amount reasoning raw text) :
    ∃ front back, Plain front ∧ Plain back ∧ text = around front raw back := by
  obtain ⟨named, counted, argued, first, second, third, order, pair, count, argues, rfl⟩ := answer
  obtain ⟨_, before, key, gap, later, after, white, name, blank, space, last, shape⟩ := argues
  have opens : Plain (before ++ '"' :: key ++ '"' :: gap ++ ':' :: later) :=
    Plain.key white name blank space (by decide)
  have closes := Plain.blank last
  have comma : Plain [','] := ⟨by decide, rfl⟩
  have others : ∀ other, other = named ∨ other = counted → Plain other := by
    intro other either
    rcases either with rfl | rfl
    · exact Plain.named promised pair
    · exact Plain.counted count
  have place : argued ∈ [first, second, third] := by
    rw [order.mem_iff]
    simp only [List.mem_cons, true_or, or_true]
  simp only [List.mem_cons, List.not_mem_nil, or_false] at place
  rcases place with rfl | rfl | rfl
  · have beside := @others_of_perm _ [] _ _ _ _ order
    have next := others _ (beside second (by simp))
    have final := others _ (beside third (by simp))
    refine ⟨_, after ++ [','] ++ second ++ [','] ++ third, opens,
      ((((closes.append comma).append next).append comma).append final), ?_⟩
    rw [shape, around]
    simp only [List.append_assoc, List.cons_append, List.nil_append]
  · have beside := @others_of_perm _ [first] _ _ _ _ order
    have leading := others _ (beside first (by simp))
    have final := others _ (beside third (by simp))
    refine ⟨first ++ [','] ++ _, after ++ [','] ++ third, (leading.append comma).append opens,
      (closes.append comma).append final, ?_⟩
    rw [shape, around]
    simp only [List.append_assoc, List.cons_append, List.nil_append]
  · have beside := @others_of_perm _ [first, second] _ _ _ _ order
    have leading := others _ (beside first (by simp))
    have next := others _ (beside second (by simp))
    refine ⟨first ++ [','] ++ second ++ [','] ++ _, after,
      (((leading.append comma).append next).append comma).append opens, closes, ?_⟩
    rw [shape, around]
    simp only [List.append_assoc, List.cons_append, List.nil_append]

theorem AnswerText.spells {action reasoning raw text : List Char} {amount : Nat}
    (answer : AnswerText action amount reasoning raw text) : Json.Spells raw reasoning := by
  obtain ⟨_, _, _, _, _, _, _, _, _, argues, _⟩ := answer
  exact argues.1

theorem ArguesFor.member {raw reasoning member : List Char}
    (argues : ArguesFor raw reasoning member) :
    Json.Member member ("reasoning".toList, .str reasoning) := by
  obtain ⟨spells, before, key, gap, later, after, white, name, blank, space, last, rfl⟩ := argues
  exact Json.Member.pair white name blank space (.str spells) last

/-- The text of an answer is a JSON text of its three fields. -/
theorem AnswerText.denotes {action reasoning raw text : List Char} {amount : Nat}
    (answer : AnswerText action amount reasoning raw text) :
    ∃ entries : List (List Char × Json), entries.Perm [("action".toList, .str action),
      ("amount".toList, .int amount), ("reasoning".toList, .str reasoning)] ∧
      Json.Denotes text (.dict entries) := by
  obtain ⟨named, counted, argued, first, second, third, order, pair, count, argues, rfl⟩ := answer
  obtain ⟨entries, members, same⟩ := List.perm_comp_forall₂ order
    (List.Forall₂.cons pair (.cons count (.cons argues.member .nil)))
  cases members with
  | cons one members =>
      cases members with
      | cons two members =>
          cases members with
          | cons three members =>
              cases members
              refine ⟨_, same, ?_⟩
              have inside := Json.Members.cons one (.cons two (.last three))
              have fields :
                  ["action".toList, "amount".toList, "reasoning".toList].Nodup := by decide
              have keys := (same.map Prod.fst).nodup_iff.mpr fields
              rw [← Dict.ofPairs_of_nodup keys]
              exact Json.Denotes.dict inside

namespace PyText

variable {py : PyText}

/-! ### The pattern of the object -/

theorem no_brace_iff {taken : List Char} :
    (∀ char ∈ taken, (char != '\x7d') = true) ↔ '\x7d' ∉ taken := by
  constructor
  · intro every member
    exact absurd rfl (bne_iff_ne.mp (every _ member))
  · intro absent char member
    rw [bne_iff_ne]
    rintro rfl
    exact absent member

/-- A match runs from an opening brace to the next closing one, with the key in between. -/
theorem jsonPattern_attempt {input : List Char} {found : Regex.Groups × List Char} :
    found ∈ jsonPattern.attempts input ↔ ∃ seg, '\x7d' ∉ seg ∧ quotedAction <:+: seg ∧
      input = '\x7b' :: (seg ++ '\x7d' :: found.2) ∧
      found.1 = [some ('\x7b' :: (seg ++ ['\x7d']))] := by
  have whole : ∀ seg rest : List Char, ('\x7b' :: (seg ++ '\x7d' :: rest)).take
      (('\x7b' :: (seg ++ '\x7d' :: rest)).length - rest.length) =
        '\x7b' :: (seg ++ ['\x7d']) := by
    intro seg rest
    have regrouped : '\x7b' :: (seg ++ '\x7d' :: rest) = '\x7b' :: (seg ++ ['\x7d']) ++ rest := by
      simp only [List.append_assoc, List.cons_append, List.nil_append]
    rw [regrouped, List.length_append, Nat.add_sub_cancel, List.take_left']
    rfl
  have folded : "\"action\"".toList = quotedAction := rfl
  unfold jsonPattern
  rw [Regex.mem_group, folded]
  simp only [Regex.concat, Regex.mem_seq_text, Regex.mem_seq_star, Regex.mem_text, no_brace_iff]
  constructor
  · rintro ⟨inner, ⟨_, start, before, _, split, clean, _, keyed, after, _, remains, pure, none,
      closed⟩, same⟩
    have shape : input = '\x7b' :: ((before ++ quotedAction ++ after) ++ '\x7d' :: inner.2) := by
      rw [start, split, keyed, remains, closed]
      simp only [List.append_assoc, List.cons_append, List.nil_append]
    refine ⟨before ++ quotedAction ++ after, ?_, ⟨before, after, rfl⟩, ?_, ?_⟩
    · rw [List.mem_append, List.mem_append, not_or, not_or]
      exact ⟨⟨clean, by decide⟩, pure⟩
    · rw [same]
      exact shape
    · rw [same, none, shape, whole]
  · rintro ⟨seg, absent, ⟨before, after, rfl⟩, shape, captured⟩
    rw [List.mem_append, List.mem_append, not_or, not_or] at absent
    refine ⟨([], found.2), ⟨_, shape, before, quotedAction ++ (after ++ '\x7d' :: found.2), ?_,
      absent.1.1, _, rfl, after, _, rfl, absent.2, rfl, rfl⟩, ?_⟩
    · show before ++ quotedAction ++ after ++ '\x7d' :: found.2 = _
      simp only [List.append_assoc]
    · apply Prod.ext
      · rw [captured, shape, whole]
      · rfl

theorem jsonPattern_barren {char : Char} (other : char ≠ '\x7b') (rest : List Char) :
    jsonPattern.attempts (char :: rest) = [] := by
  apply List.eq_nil_iff_forall_not_mem.mpr
  intro found tried
  obtain ⟨seg, _, _, split, _⟩ := jsonPattern_attempt.mp tried
  exact other (List.cons.inj split).1

/-- The first brace is matched when the key stands before the next closing one. -/
theorem jsonPattern_first {skip seg rest : List Char} (before : '\x7b' ∉ skip)
    (absent : '\x7d' ∉ seg) (keyed : quotedAction <:+: seg) :
    jsonPattern.search (skip ++ '\x7b' :: (seg ++ '\x7d' :: rest)) =
      some [some ('\x7b' :: (seg ++ ['\x7d']))] := by
  rw [Regex.search_skip]
  · apply Regex.search_of_match
    apply @Regex.matchStart_of_mem _ _ ([some ('\x7b' :: (seg ++ ['\x7d']))], rest)
    · exact jsonPattern_attempt.mpr ⟨seg, absent, keyed, rfl, rfl⟩
    · intro other tried
      obtain ⟨inner, clean, _, split, captured⟩ := jsonPattern_attempt.mp tried
      have same := (Text.first_mark absent clean (List.cons.inj split).2).1
      rw [captured, same]
  · intro char member more
    apply jsonPattern_barren
    rintro rfl
    exact before member

/-! ### The fence -/

/-- Without a line end before it a backtick of the reasoning opens no fence. -/
theorem fence_apart {left raw right : List Char} (before : '`' ∉ left) (behind : '`' ∉ right)
    (newline : '\n' ∉ raw) : ¬['\n', '`'] <:+: left ++ '"' :: (raw ++ '"' :: right) := by
  rintro ⟨skip, rest, split⟩
  have opened : '`' ∉ left ++ ['"'] := Text.not_mem_joined (by decide) before nofun
  have closed : '`' ∉ '"' :: right := by
    rw [List.mem_cons, not_or]
    exact ⟨by decide, behind⟩
  have grouped : left ++ ['"'] ++ (raw ++ '"' :: right) = skip ++ ['\n'] ++ '`' :: rest := by
    simpa only [List.append_assoc, List.cons_append, List.nil_append] using split.symm
  obtain ⟨later, front, inside⟩ := Text.mark_right opened grouped
  obtain ⟨more, within, _⟩ := Text.mark_left closed inside
  have ends := congrArg List.getLast? front
  rw [List.getLast?_concat] at ends
  rcases List.eq_nil_or_concat later with rfl | ⟨begin, final, rfl⟩
  · rw [List.append_nil, List.getLast?_concat] at ends
    cases ends
  · rw [List.concat_eq_append, ← List.append_assoc, List.getLast?_concat] at ends
    cases ends
    apply newline
    rw [within]
    simp

theorem markdown_fence {input : List Char} {groups : Regex.Groups}
    (found : py.markdownPattern.search input = some groups) : ['\n', '`'] <:+: input := by
  obtain ⟨skip, start, rest, rfl, tried⟩ := Regex.search_mem found
  unfold markdownPattern at tried
  simp only [Regex.concat, Regex.mem_seq_text, Regex.mem_seq_star] at tried
  obtain ⟨_, rfl, gap, _, rfl, _, lines, rfl, tried⟩ := tried
  obtain ⟨head, taken, tail, closed, _⟩ := Regex.mem_seq.mp tried
  obtain ⟨body, rfl⟩ := (Regex.attempts_spec taken).1
  rw [(Regex.mem_text.mp closed).2]
  refine ⟨skip ++ "```json".toList ++ gap ++ ['\n'] ++ body, "``".toList ++ tail.2, ?_⟩
  have fence : "\n```".toList = ['\n', '`'] ++ "``".toList := rfl
  rw [fence]
  simp only [List.append_assoc]

/-- The white space behind the opening of a fence ends with its line. -/
theorem markdown_attempts (py : PyText) (body : List Char) :
    py.markdownPattern.attempts ("```json\n".toList ++ '\x7b' :: body) =
      (Regex.seq (.group (.alt (.text []) (.run (fun _ => true) true)))
        (.text "\n```".toList)).attempts ('\x7b' :: body) := by
  have newline : py.space '\n' = true := by
    rw [py.space_ascii _ (by decide)]
    decide
  have brace : py.space '\x7b' = false := by
    rw [py.space_ascii _ (by decide)]
    decide
  have spaces : (Regex.opt (.run py.space false)).attempts ('\n' :: '\x7b' :: body) =
      [([], '\x7b' :: body), ([], '\n' :: '\x7b' :: body)] := by
    simp only [Regex.attempts, Regex.afterRun, newline, brace, if_true, Bool.false_eq_true,
      if_false, List.nil_append, List.map_cons, List.map_nil, List.cons_append,
      Regex.groupCount, List.replicate_zero]
  have outset : "```json\n".toList ++ '\x7b' :: body =
      "```json".toList ++ '\n' :: '\x7b' :: body := rfl
  rw [outset]
  unfold markdownPattern
  simp only [Regex.concat]
  rw [Regex.attempts_seq_single (Regex.attempts_text _ _), Regex.attempts, spaces]
  have stuck : (Regex.seq (.text ['\n']) (.seq
      (.group (.alt (.text []) (.run (fun _ => true) true))) (.text "\n```".toList))).attempts
        ('\x7b' :: body) = [] := by
    apply List.eq_nil_iff_forall_not_mem.mpr
    intro found tried
    obtain ⟨rest, split, _⟩ := Regex.mem_seq_text.mp tried
    exact absurd (List.cons.inj split).1 (by decide)
  have lined := @Regex.attempts_seq_single (.text ['\n']) (.seq
    (.group (.alt (.text []) (.run (fun _ => true) true))) (.text "\n```".toList)) _ _
    (Regex.attempts_text ['\n'] ('\x7b' :: body))
  rw [List.singleton_append] at lined
  simp only [List.flatMap_cons, List.flatMap_nil, stuck, lined, List.map_nil, List.nil_append,
    List.append_nil, List.map_id']

/-- Of a fenced text all of it is taken. -/
theorem markdown_search {before body after : List Char} (white : Json.Blank before)
    (apart : ¬['\n', '`'] <:+: '\x7b' :: body) :
    py.markdownPattern.search
        (before ++ ("```json\n".toList ++ ('\x7b' :: body ++ ("\n```".toList ++ after)))) =
      some [some ('\x7b' :: body)] := by
  rw [Regex.search_skip]
  · apply Regex.search_of_match
    unfold Regex.matchStart
    rw [List.cons_append, markdown_attempts, ← List.cons_append, Regex.head_lazy]
    · rfl
    · intro front back split present begins
      cases back with
      | nil => exact present rfl
      | cons first back =>
          have fence : "\n```".toList = '\n' :: '`' :: "``".toList := rfl
          rw [fence, List.cons_append, List.cons_prefix_cons] at begins
          obtain ⟨rfl, begins⟩ := begins
          cases back with
          | nil =>
              rw [List.nil_append, List.cons_append, List.cons_prefix_cons] at begins
              exact absurd begins.1 (by decide)
          | cons second back =>
              rw [List.cons_append, List.cons_prefix_cons] at begins
              obtain ⟨rfl, _⟩ := begins
              apply apart
              rw [split]
              exact ⟨front, back, by simp only [List.append_assoc, List.cons_append,
                List.nil_append]⟩
  · intro char member more
    apply List.eq_nil_iff_forall_not_mem.mpr
    intro found tried
    unfold markdownPattern at tried
    simp only [Regex.concat, Regex.mem_seq_text] at tried
    obtain ⟨rest, split, _⟩ := tried
    have apart : ∀ char ∈ [' ', '\t', '\n', '\r'], char ≠ '`' := by decide
    exact apart char (white char member) (List.cons.inj split).1

/-- The fence is taken off, and white space is all that may be left around the object. -/
theorem cleanedResponse_delivered (py : PyText) {front raw back response : List Char}
    (opens : Plain front) (closes : Plain back) (newline : '\n' ∉ raw)
    (delivered : Delivered (around front raw back) response) :
    ∃ before after, Json.Blank before ∧ Json.Blank after ∧
      py.cleanedResponse response = before ++ (around front raw back ++ after) := by
  have unticked : ∀ {text}, Plain text → '`' ∉ text := fun plain => plain.unmarked _ (by decide)
  have apart : ∀ {before after}, Json.Blank before → Json.Blank after →
      ¬['\n', '`'] <:+: before ++ (around front raw back ++ after) := by
    intro before after white blank
    have left : '`' ∉ before ++ '\x7b' :: front :=
      Text.not_mem_joined (by decide) (unticked (Plain.blank white)) (unticked opens)
    have right : '`' ∉ back ++ '\x7d' :: after :=
      Text.not_mem_joined (by decide) (unticked closes) (unticked (Plain.blank blank))
    have fenceless := fence_apart left right newline
    simpa only [around, List.append_assoc, List.cons_append, List.nil_append] using fenceless
  cases delivered with
  | @bare before after white blank =>
      refine ⟨before, after, white, blank, ?_⟩
      unfold cleanedResponse
      split
      · split
        · rename_i found
          exact absurd (markdown_fence found) (apart white blank)
        · rfl
      · rfl
  | @fenced before after white blank =>
      refine ⟨[], [], nofun, nofun, ?_⟩
      have alone := @apart [] [] nofun nofun
      rw [List.nil_append, List.append_nil] at alone
      have mentioned : Text.contains "```json".toList (before ++ ("```json\n".toList ++
          (around front raw back ++ ("\n```".toList ++ after)))) = true := by
        apply Text.contains_of_infix
        refine ⟨before, ['\n'] ++ (around front raw back ++ ("\n```".toList ++ after)), ?_⟩
        rw [List.append_assoc]
        rfl
      have found := @markdown_search py _ _ after white alone
      unfold cleanedResponse
      rw [if_pos mentioned]
      unfold around at found ⊢
      rw [found, List.append_nil]
      rfl

/-! ### The cut -/

theorem unclosed {front raw back : List Char} (opens : Plain front) (closes : Plain back)
    (clean : '\x7d' ∉ raw) : '\x7d' ∉ front ++ '"' :: (raw ++ '"' :: back) :=
  Text.not_mem_joined (by decide) (opens.unmarked _ (by decide))
    (Text.not_mem_joined (by decide) clean (closes.unmarked _ (by decide)))

theorem cut_whole {before front raw back after : List Char} (white : Json.Blank before)
    (opens : Plain front) (closes : Plain back) (clean : '\x7d' ∉ raw)
    (keyed : quotedAction <:+: around front raw back) :
    jsonPattern.search (before ++ (around front raw back ++ after)) =
      some [some (around front raw back)] := by
  have shape : around front raw back =
      '\x7b' :: (front ++ '"' :: (raw ++ '"' :: back) ++ ['\x7d']) := by
    simp only [around, List.append_assoc, List.cons_append]
  rw [shape] at keyed ⊢
  have within := @Text.infix_framed '\x7b' '\x7d' '"' '"' "action".toList _ (by decide)
    (by decide) keyed
  have found := @jsonPattern_first before _ after
    ((Plain.blank white).unmarked _ (by decide)) (unclosed opens closes clean) within
  simpa only [List.append_assoc, List.cons_append, List.nil_append] using found

/-- An object cut from its own brace on ends within the reasoning, unless all of it is cut. -/
theorem cut_front {front raw reasoning back after seg rest : List Char} (opens : Plain front)
    (closes : Plain back) (spells : Json.Spells raw reasoning)
    (bad : ¬('\x7d' ∉ raw ∧ quotedAction <:+: around front raw back)) (absent : '\x7d' ∉ seg)
    (keyed : quotedAction <:+: seg)
    (split : front ++ '"' :: (raw ++ '"' :: (back ++ '\x7d' :: after)) = seg ++ '\x7d' :: rest) :
    Json.scan .outside (seg ++ ['\x7d']) ≠ .outside := by
  by_cases clean : '\x7d' ∉ raw
  · have whole := (@Text.first_mark '\x7d' _ after _ _ (unclosed opens closes clean) absent
      (by simpa only [List.append_assoc, List.cons_append] using split)).1
    apply absurd ⟨clean, ?_⟩ bad
    rw [← whole] at keyed
    apply keyed.trans
    refine ⟨['\x7b'], ['\x7d'], ?_⟩
    simp only [around, List.append_assoc, List.cons_append, List.nil_append]
  · obtain ⟨first, second, broken, early⟩ := List.eq_append_cons_of_mem (not_not.mp clean)
    have within : '\x7d' ∉ front ++ '"' :: first :=
      Text.not_mem_joined (by decide) (opens.unmarked _ (by decide)) early
    rw [broken] at split
    have same := (@Text.first_mark '\x7d' (front ++ '"' :: first) _ _ _ within absent
      (by simpa only [List.append_assoc, List.cons_append] using split)).1
    have regrouped : raw = (first ++ ['\x7d']) ++ second := by
      rw [broken, List.append_assoc]
      rfl
    rw [← same, List.append_assoc, Json.scan_append, opens.closed]
    show Json.scan .inside (first ++ ['\x7d']) ≠ .outside
    exact spells.held.not_outside regrouped

/-- An object cut from a brace of the reasoning on ends where the quotes are the other way
round. -/
theorem cut_inside {raw reasoning back after part seg rest : List Char} (closes : Plain back)
    (blank : Json.Blank after) (spells : Json.Spells raw reasoning) (absent : '\x7d' ∉ seg)
    (keyed : quotedAction <:+: seg)
    (split : raw ++ '"' :: (back ++ '\x7d' :: after) = part ++ '\x7b' :: (seg ++ '\x7d' :: rest)) :
    Json.scan .outside (seg ++ ['\x7d']) ≠ .outside := by
  have ends : '\x7b' ∉ '"' :: (back ++ '\x7d' :: after) :=
    Text.not_mem_joined (by decide)
      (Text.not_mem_joined (by decide) List.not_mem_nil (closes.unmarked _ (by decide)))
      ((Plain.blank blank).unmarked _ (by decide))
  obtain ⟨left, broken, remains⟩ := Text.mark_left ends split
  have within : quotedAction <:+: raw → False :=
    spells.held.not_quoted (show Json.Bare "action".toList by unfold Json.Bare; decide)
  by_cases clean : '\x7d' ∉ left
  · have tail : '\x7d' ∉ left ++ '"' :: back :=
      Text.not_mem_joined (by decide) clean (closes.unmarked _ (by decide))
    have same := (@Text.first_mark '\x7d' (left ++ '"' :: back) after _ _ tail absent
      (by simpa only [List.append_assoc, List.cons_append] using remains.symm)).1
    have within : Json.scan .inside left = .inside := by
      have whole := spells.scan
      rw [broken, Json.scan_append] at whole
      rcases spells.held part ('\x7b' :: left) broken with inside | escaped
      · rw [inside] at whole
        exact whole
      · rw [escaped] at whole
        exact whole
    apply Json.Crossed.end_ne
    rw [← same, List.append_assoc, Json.scan_append, within]
    show Json.scan .outside (back ++ ['\x7d']) = .outside
    rw [Json.scan_append, closes.closed]
    rfl
  · obtain ⟨first, second, again, early⟩ := List.eq_append_cons_of_mem (not_not.mp clean)
    rw [again] at remains
    have same := (@Text.first_mark '\x7d' first _ _ _ early absent
      (by simpa only [List.append_assoc, List.cons_append] using remains.symm)).1
    rw [← same] at keyed
    apply absurd (keyed.trans _) within
    refine ⟨part ++ ['\x7b'], '\x7d' :: second, ?_⟩
    rw [broken, again]
    simp only [List.append_assoc, List.cons_append, List.nil_append]

/-- What is cut out of any other object leaves its quotes open. -/
theorem cut_open {before front raw reasoning back after : List Char} {groups : Regex.Groups}
    (white : Json.Blank before) (blank : Json.Blank after) (opens : Plain front)
    (closes : Plain back) (spells : Json.Spells raw reasoning)
    (bad : ¬('\x7d' ∉ raw ∧ quotedAction <:+: around front raw back))
    (found : jsonPattern.search (before ++ (around front raw back ++ after)) = some groups) :
    Json.scan .outside (groupText groups 0) ≠ .outside := by
  obtain ⟨skip, start, rest, split, tried⟩ := Regex.search_mem found
  obtain ⟨seg, absent, keyed, shape, captured⟩ := jsonPattern_attempt.mp tried
  have only : groups = [some ('\x7b' :: (seg ++ ['\x7d']))] := captured
  rw [only]
  show Json.scan .outside (seg ++ ['\x7d']) ≠ .outside
  rw [shape] at split
  obtain ⟨later, _, remains⟩ := Text.mark_right
    ((Plain.blank white).unmarked _ (by decide)) split
  simp only [around, List.append_assoc, List.cons_append, List.nil_append] at remains
  cases later with
  | nil => exact cut_front opens closes spells bad absent keyed (List.cons.inj remains).2
  | cons head later =>
      have opened : '\x7b' ∉ front ++ ['"'] :=
        Text.not_mem_joined (by decide) (opens.unmarked _ (by decide)) List.not_mem_nil
      have inner : front ++ ['"'] ++ (raw ++ '"' :: (back ++ '\x7d' :: after)) =
          later ++ '\x7b' :: (seg ++ '\x7d' :: rest) := by
        rw [List.append_assoc]
        exact (List.cons.inj remains).2
      obtain ⟨part, _, within⟩ := Text.mark_right opened inner
      exact cut_inside closes blank spells absent keyed within

/-! ### The decision -/

theorem lower_promised (py : PyText) {action : List Char} (promised : action ∈ promisedActions) :
    py.lower action = action := by
  have plain : ∀ action ∈ promisedActions,
      (∀ char ∈ action, char.val < 128) ∧ action.map Char.toLower = action := by decide
  obtain ⟨ascii, same⟩ := plain action promised
  rw [py.lower_ascii action ascii, same]

theorem normalise_promised (py : PyText) (chips : Int) (actions : List (List Char))
    {action : List Char} (amount : Nat) (promised : action ∈ promisedActions) :
    py.normalise chips actions action (.int amount) =
      .ok (action, .int (py.normalisedAmount chips actions action amount)) := by
  simp only [promisedActions, List.mem_cons, List.not_mem_nil, or_false] at promised
  unfold normalise normalisedAmount
  rcases promised with rfl | rfl | rfl | rfl | rfl
  · rfl
  · rfl
  · rw [if_neg (by decide), if_pos rfl, if_pos rfl]
    cases py.listedCall actions with
    | none => rfl
    | some price => rfl
  · rw [if_neg (by decide), if_neg (by decide), if_neg (by decide), if_pos rfl]
    have raising : "raise".toList ≠ "call".toList := by decide
    rw [if_neg raising, if_pos rfl]
    dsimp only
    by_cases listed : 0 < py.minRaise actions
    · rw [if_pos listed]
      by_cases below : amount < py.minRaise actions
      · have less : lessThan (.int amount) (py.minRaise actions) = .ok true := by
          simp only [lessThan, Int.ofNat_lt, below, decide_true]
        rw [less, Nat.max_eq_left (Nat.le_of_lt below)]
      · have more : lessThan (.int amount) (py.minRaise actions) = .ok false := by
          simp only [lessThan, Int.ofNat_lt, below, decide_false]
        rw [more, Nat.max_eq_right (Nat.le_of_not_lt below)]
    · have free : py.minRaise actions = 0 := by omega
      rw [if_neg listed, free, Nat.zero_max]
  · rfl

theorem readDecision_answer (py : PyText) (chips : Int) (actions : List (List Char))
    {action reasoning : List Char} {amount : Nat} {entries : List (List Char × Json)}
    (promised : action ∈ promisedActions)
    (fields : entries.Perm [("action".toList, .str action), ("amount".toList, .int amount),
      ("reasoning".toList, .str reasoning)]) :
    (py.readDecision chips actions (.dict entries)).1 =
      .ok ⟨action, py.normalisedAmount chips actions action amount⟩ := by
  have names : ["action".toList, "amount".toList, "reasoning".toList].Nodup := by decide
  have distinct := (fields.map Prod.fst).nodup_iff.mpr names
  have named : entries.lookup "action".toList = some (.str action) := by
    apply Dict.lookup_of_mem distinct
    rw [fields.mem_iff]
    exact List.mem_cons_self ..
  have counted : entries.lookup "amount".toList = some (.int amount) := by
    apply Dict.lookup_of_mem distinct
    rw [fields.mem_iff]
    exact List.mem_cons_of_mem _ (List.mem_cons_self ..)
  have spoken : (entries.lookup "action".toList).getD (.str "fold".toList) = .str action := by
    rw [named]
    rfl
  rw [readDecision_dict spoken, counted, lower_promised py promised, Option.getD_some,
    normalise_promised py chips actions amount promised]
  rfl

theorem parse_read {loads : List Char → Option Json} {chips : Int} {actions : List (List Char)}
    {lastReasoning : Option Json} {response text : List Char} {object : Json}
    {decision : AgentDecision} (cut : py.jsonStr response = some text)
    (loaded : loads text = some object)
    (read : (py.readDecision chips actions object).1 = .ok decision) :
    (py.parseLlmResponse loads chips actions lastReasoning response).result = .ok decision := by
  unfold parseLlmResponse
  simp only [cut, loaded, read]

theorem parse_unread {loads : List Char → Option Json} {chips : Int} {actions : List (List Char)}
    {lastReasoning : Option Json} {response : List Char}
    (unread : ∀ text, py.jsonStr response = some text → loads text = none) :
    (py.parseLlmResponse loads chips actions lastReasoning response).result =
      .ok foldDecision := by
  unfold parseLlmResponse
  cases cut : py.jsonStr response with
  | none => rfl
  | some text => simp only [unread text cut]

/-- With a correct `json.loads`, a response in the documented format comes back as its decision
exactly when that is to fold, or when the reasoning holds no closing brace and the name of the
action's field is spelt without escapes. -/
theorem answer_round_trip_iff (py : PyText) (loads : List Char → Option Json) (chips : Int)
    (actions : List (List Char)) (lastReasoning : Option Json)
    (action : List Char) (amount : Nat) (reasoning raw text response : List Char)
    (promised : action ∈ promisedActions)
    (answer : AnswerText action amount reasoning raw text) (delivered : Delivered text response)
    (sound : ∀ asked value, loads asked = some value → Json.Document asked value)
    (reads : ∃ entries : List (List Char × Json), loads text = some (.dict entries) ∧
      entries.Perm [("action".toList, .str action), ("amount".toList, .int amount),
        ("reasoning".toList, .str reasoning)]) :
    (py.parseLlmResponse loads chips actions lastReasoning response).result =
        .ok ⟨action, py.normalisedAmount chips actions action amount⟩ ↔
      action = "fold".toList ∨ ('\x7d' ∉ raw ∧ quotedAction <:+: text) := by
  obtain ⟨entries, loaded, fields⟩ := reads
  have spells := answer.spells
  obtain ⟨front, back, opens, closes, rfl⟩ := answer.framed promised
  obtain ⟨before, after, white, blank, cleaned⟩ :=
    cleanedResponse_delivered py opens closes spells.no_newline delivered
  have cut : py.jsonStr response =
      (jsonPattern.search (before ++ (around front raw back ++ after))).map fun groups =>
        groupText groups 0 := by
    unfold jsonStr
    rw [cleaned]
  by_cases good : '\x7d' ∉ raw ∧ quotedAction <:+: around front raw back
  · have whole : py.jsonStr response = some (around front raw back) := by
      rw [cut, cut_whole white opens closes good.1 good.2]
      rfl
    have read := readDecision_answer py chips actions promised fields
    exact ⟨fun _ => Or.inr good, fun _ => parse_read whole loaded read⟩
  · have folded : (py.parseLlmResponse loads chips actions lastReasoning response).result =
        .ok foldDecision := by
      apply parse_unread
      intro text found
      rw [cut, Option.map_eq_some_iff] at found
      obtain ⟨groups, searched, rfl⟩ := found
      have unclosed := cut_open white blank opens closes spells good searched
      cases decoded : loads (groupText groups 0) with
      | none => rfl
      | some value => exact absurd (sound _ _ decoded).scan unclosed
    rw [folded]
    constructor
    · intro same
      left
      exact (congrArg AgentDecision.action (Except.ok.inj same)).symm
    · intro either
      have fold := either.resolve_right good
      rw [fold]
      rfl

/-! ### Answers as `json.dumps` writes them -/

def Printed (text : List Char) : Prop :=
  ∀ char ∈ text, char ≠ '"' ∧ char ≠ '\\' ∧ 32 ≤ char.toNat

instance (text : List Char) : Decidable (Printed text) :=
  inferInstanceAs (Decidable (∀ char ∈ text, _))

theorem Printed.spells {text : List Char} (printed : Printed text) : Json.Spells text text := by
  induction text with
  | nil => exact .nil
  | cons char rest ih =>
      obtain ⟨quote, slash, visible⟩ := printed char (List.mem_cons_self ..)
      exact .plain quote slash visible (ih fun other member =>
        printed other (List.mem_cons_of_mem _ member))

def keyed (key value : List Char) : List Char := '"' :: key ++ '"' :: ':' :: ' ' :: value

/-- The text that `json.dumps` gives for an answer that needs no escape. -/
def dumped (action : List Char) (amount : Nat) (reasoning : List Char) : List Char :=
  '\x7b' :: (keyed "action".toList ('"' :: (action ++ ['"'])) ++
    ',' :: ' ' :: (keyed "amount".toList (toString (amount : Int)).toList ++
      ',' :: ' ' :: keyed "reasoning".toList ('"' :: (reasoning ++ ['"']))) ++ ['\x7d'])

theorem keyed_member {before key text : List Char} {value : Json} (white : Json.Blank before)
    (printed : Printed key) (element : Json.Denotes text value) :
    Json.Member (before ++ keyed key text) (key, value) := by
  have space : Json.Blank [' '] := by
    unfold Json.Blank
    decide
  have nothing : Json.Blank [] := nofun
  have member := Json.Member.pair white printed.spells nothing space element nothing
  simpa only [keyed, List.append_assoc, List.cons_append, List.nil_append, List.append_nil]
    using member

/-- What `json.dumps` writes is an answer text, and denotes the three fields. -/
theorem dumped_answer {action reasoning : List Char} (amount : Nat) (named : Printed action)
    (argued : Printed reasoning) :
    AnswerText action amount reasoning reasoning (dumped action amount reasoning) ∧
      Json.Denotes (dumped action amount reasoning) (.dict [("action".toList, .str action),
        ("amount".toList, .int amount), ("reasoning".toList, .str reasoning)]) := by
  have space : Json.Blank [' '] := by
    unfold Json.Blank
    decide
  have nothing : Json.Blank [] := nofun
  have first : Json.Member _ ("action".toList, .str action) :=
    keyed_member nothing (by decide) (.str named.spells)
  have second : Json.Member _ ("amount".toList, .int amount) :=
    keyed_member space (by decide) (.int (Or.inl rfl))
  have third : ArguesFor reasoning reasoning
      ([' '] ++ keyed "reasoning".toList ('"' :: (reasoning ++ ['"']))) := by
    have key : Printed "reasoning".toList := by decide
    refine ⟨argued.spells, [' '], _, [], [' '], [], space, key.spells, nothing, space, nothing, ?_⟩
    simp only [keyed, List.append_assoc, List.cons_append, List.nil_append, List.append_nil]
  constructor
  · exact ⟨_, _, _, _, _, _, List.Perm.refl _, first, second, third, rfl⟩
  · have names : (List.map Prod.fst [("action".toList, Json.str action),
        ("amount".toList, .int amount), ("reasoning".toList, .str reasoning)]).Nodup := by
      show ["action".toList, "amount".toList, "reasoning".toList].Nodup
      decide
    rw [← Dict.ofPairs_of_nodup names]
    exact Json.Denotes.dict (.cons first (.cons second (.last third.member)))

/-- A `json.loads` that knows one answer. -/
def loadsAnswer (action : String) (amount : Nat) (reasoning : String) :
    List Char → Option Json :=
  loadsOne (String.ofList (dumped action.toList amount reasoning.toList))
    [("action".toList, .str action.toList), ("amount".toList, .int amount),
      ("reasoning".toList, .str reasoning.toList)]

theorem loadsAnswer_sound {action reasoning : String} (amount : Nat)
    (named : Printed action.toList) (argued : Printed reasoning.toList) (asked : List Char)
    (value : Json) (loaded : loadsAnswer action amount reasoning asked = some value) :
    Json.Document asked value := by
  unfold loadsAnswer loadsOne at loaded
  split at loaded
  · rename_i same
    cases loaded
    rw [String.toList_ofList] at same
    rw [same]
    exact ⟨[], _, [], nofun, (dumped_answer amount named argued).2, nofun,
      (List.append_nil _).symm⟩
  · cases loaded

theorem loadsAnswer_dumped (action : String) (amount : Nat) (reasoning : String) :
    loadsAnswer action amount reasoning (dumped action.toList amount reasoning.toList) =
      some (.dict [("action".toList, .str action.toList), ("amount".toList, .int amount),
        ("reasoning".toList, .str reasoning.toList)]) := by
  unfold loadsAnswer loadsOne
  rw [String.toList_ofList, if_pos rfl]

/-- A raise in a fence, below the listed minimum. -/
theorem answer_round_trip_raise :
    (ascii.parseLlmResponse (loadsAnswer "raise" 30 "top \x7b pair") 500
        ["fold".toList, "raise (min 40)".toList] none
        ("```json\n".toList ++ (dumped "raise".toList 30 "top \x7b pair".toList ++
          "\n```".toList))).result =
      .ok ⟨"raise".toList, 40⟩ := by
  have named : Printed "raise".toList := by decide
  have argued : Printed "top \x7b pair".toList := by decide
  have returned := (answer_round_trip_iff ascii (loadsAnswer "raise" 30 "top \x7b pair") 500
    ["fold".toList, "raise (min 40)".toList] none "raise".toList 30 "top \x7b pair".toList
    "top \x7b pair".toList (dumped "raise".toList 30 "top \x7b pair".toList) _ (by decide)
    (dumped_answer 30 named argued).1 (@Delivered.fenced _ [] [] nofun nofun)
    (loadsAnswer_sound 30 named argued)
    ⟨_, loadsAnswer_dumped "raise" 30 "top \x7b pair", List.Perm.refl _⟩).mpr
    (Or.inr ⟨by decide, by decide⟩)
  have least : ascii.normalisedAmount 500 ["fold".toList, "raise (min 40)".toList]
      "raise".toList 30 = 40 := by decide
  rw [least] at returned
  exact returned

/-- A closing brace in the reasoning turns a call into a fold. -/
theorem closing_brace_folds :
    AnswerText "call".toList 20 "a \x7d b".toList "a \x7d b".toList
        (dumped "call".toList 20 "a \x7d b".toList) ∧
      Delivered (dumped "call".toList 20 "a \x7d b".toList)
        (dumped "call".toList 20 "a \x7d b".toList) ∧
      (∀ asked value, loadsAnswer "call" 20 "a \x7d b" asked = some value →
        Json.Document asked value) ∧
      loadsAnswer "call" 20 "a \x7d b" (dumped "call".toList 20 "a \x7d b".toList) =
        some (.dict [("action".toList, .str "call".toList), ("amount".toList, .int 20),
          ("reasoning".toList, .str "a \x7d b".toList)]) ∧
      (ascii.parseLlmResponse (loadsAnswer "call" 20 "a \x7d b") 500 ["call (20)".toList] none
          (dumped "call".toList 20 "a \x7d b".toList)).result = .ok ⟨"fold".toList, 0⟩ ∧
      ascii.normalisedAmount 500 ["call (20)".toList] "call".toList 20 = 20 := by
  have named : Printed "call".toList := by decide
  have argued : Printed "a \x7d b".toList := by decide
  have bare := @Delivered.bare (dumped "call".toList 20 "a \x7d b".toList) [] [] nofun nofun
  rw [List.nil_append, List.append_nil] at bare
  refine ⟨(dumped_answer 20 named argued).1, bare, loadsAnswer_sound 20 named argued,
    loadsAnswer_dumped "call" 20 "a \x7d b", ?_, ?_⟩
  · decide
  · decide

end PyText

end Holdem
