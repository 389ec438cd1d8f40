import Mathlib.Data.List.Infix

set_option autoImplicit false

/-- Regular expressions over characters. `run` is one or more characters of a class, as many
as possible unless it is lazy, and `opt` a part that is taken where it can be. -/
inductive Regex
  | text (literal : List Char)
  | one (test : Char → Bool)
  | run (test : Char → Bool) (isLazy : Bool)
  | seq (first second : Regex)
  | alt (first second : Regex)
  | opt (body : Regex)
  | group (body : Regex)

namespace Regex

/-- The texts of the groups, in the order of their brackets; `none` for a group that takes no
part in the match. -/
abbrev Groups := List (Option (List Char))

def groupCount : Regex → Nat
  | text _ => 0
  | one _ => 0
  | run _ _ => 0
  | seq first second => first.groupCount + second.groupCount
  | alt first second => first.groupCount + second.groupCount
  | opt body => body.groupCount
  | group body => body.groupCount + 1

/-- What is left of the input after a literal. -/
def after : List Char → List Char → Option (List Char)
  | [], input => some input
  | _ :: _, [] => none
  | char :: rest, head :: input => if char = head then after rest input else none

/-- What is left after one or more characters of a class, the longest run first. -/
def afterRun (test : Char → Bool) : List Char → List (List Char)
  | [] => []
  | char :: rest => if test char then afterRun test rest ++ [rest] else []

/-- All ways to match at the start of the input, in the order a backtracking matcher tries
them: the groups and the rest of the input. -/
def attempts : Regex → List Char → List (Groups × List Char)
  | text literal, input => (after literal input).toList.map fun rest => ([], rest)
  | one test, input =>
      match input with
      | [] => []
      | char :: rest => if test char then [([], rest)] else []
  | run test isLazy, input =>
      let found := afterRun test input
      (if isLazy then found.reverse else found).map fun rest => ([], rest)
  | seq first second, input =>
      (first.attempts input).flatMap fun head =>
        (second.attempts head.2).map fun tail => (head.1 ++ tail.1, tail.2)
  | alt first second, input =>
      ((first.attempts input).map fun found =>
          (found.1 ++ List.replicate second.groupCount none, found.2)) ++
        (second.attempts input).map fun found =>
          (List.replicate first.groupCount none ++ found.1, found.2)
  | opt body, input => body.attempts input ++ [(List.replicate body.groupCount none, input)]
  | group body, input =>
      (body.attempts input).map fun found =>
        (some (input.take (input.length - found.2.length)) :: found.1, found.2)

/-- `re.match`: the groups of the first match at the start of the input. -/
def matchStart (pattern : Regex) (input : List Char) : Option Groups :=
  ((pattern.attempts input).head?).map Prod.fst

/-- `re.search`: the groups of the first match at the first place where there is one. -/
def search (pattern : Regex) : List Char → Option Groups
  | [] => pattern.matchStart []
  | char :: rest =>
      match pattern.matchStart (char :: rest) with
      | some groups => some groups
      | none => search pattern rest

/-- `re.findall` with so many places left to try, for a pattern that never matches the empty
text: the groups of the matches one behind the other. -/
def findAllFrom (pattern : Regex) : Nat → List Char → List Groups
  | 0, _ => []
  | places + 1, input =>
      match (pattern.attempts input).head? with
      | some (groups, rest) => groups :: findAllFrom pattern places rest
      | none =>
          match input with
          | [] => []
          | _ :: rest => findAllFrom pattern places rest

def findAll (pattern : Regex) (input : List Char) : List Groups :=
  pattern.findAllFrom (input.length + 1) input

def concat : List Regex → Regex
  | [] => text []
  | [last] => last
  | first :: rest => seq first (concat rest)

/-- A class a number of times. -/
def times (count : Nat) (test : Char → Bool) : Regex :=
  concat (List.replicate count (one test))

/-- Every match contains this character of a literal. -/
def needs (char : Char) : Regex → Bool
  | text literal => literal.contains char
  | one _ => false
  | run _ _ => false
  | seq first second => first.needs char || second.needs char
  | alt first second => first.needs char && second.needs char
  | opt _ => false
  | group body => body.needs char

/-! ### The definitions, one case at a time -/

section Cases

variable (pattern first second body : Regex) (input : List Char)

theorem after_cons (char head : Char) (literal input : List Char) :
    after (char :: literal) (head :: input) =
      if char = head then after literal input else none := rfl

theorem afterRun_cons (test : Char → Bool) (char : Char) (rest : List Char) :
    afterRun test (char :: rest) = if test char then afterRun test rest ++ [rest] else [] := rfl

theorem attempts_one_cons (test : Char → Bool) (char : Char) (rest : List Char) :
    (one test).attempts (char :: rest) = if test char then [([], rest)] else [] := rfl

theorem attempts_run (test : Char → Bool) (isLazy : Bool) :
    (run test isLazy).attempts input =
      (if isLazy then (afterRun test input).reverse else afterRun test input).map
        fun rest => ([], rest) := rfl

theorem attempts_seq : (seq first second).attempts input =
    (first.attempts input).flatMap fun head =>
      (second.attempts head.2).map fun tail => (head.1 ++ tail.1, tail.2) := rfl

theorem attempts_group : (group body).attempts input = (body.attempts input).map fun found =>
    (some (input.take (input.length - found.2.length)) :: found.1, found.2) := rfl

theorem matchStart_eq :
    pattern.matchStart input = ((pattern.attempts input).head?).map Prod.fst := rfl

theorem search_cons (char : Char) (rest : List Char) : pattern.search (char :: rest) =
    match pattern.matchStart (char :: rest) with
    | some groups => some groups
    | none => pattern.search rest := rfl

end Cases

theorem after_eq {literal input rest : List Char} (found : after literal input = some rest) :
    input = literal ++ rest := by
  induction literal generalizing input with
  | nil =>
      cases found
      rfl
  | cons char literal ih =>
      cases input with
      | nil => cases found
      | cons head input =>
          rw [after_cons] at found
          split at found
          · rename_i same
            rw [same, ih found, List.cons_append]
          · cases found

theorem afterRun_suffix {test : Char → Bool} {input rest : List Char}
    (found : rest ∈ afterRun test input) : rest <:+ input := by
  induction input with
  | nil => cases found
  | cons char input ih =>
      rw [afterRun_cons] at found
      split at found
      · rcases List.mem_append.mp found with longer | shortest
        · exact (ih longer).trans (List.suffix_cons char input)
        · rw [List.mem_singleton.mp shortest]
          exact List.suffix_cons char input
      · cases found

/-- A match leaves the end of the input, and has read every character that it needs. -/
theorem attempts_spec {pattern : Regex} {input : List Char} {found : Groups × List Char}
    (tried : found ∈ pattern.attempts input) :
    found.2 <:+ input ∧ ∀ char, pattern.needs char = true → char ∈ input := by
  induction pattern generalizing input found with
  | text literal =>
      obtain ⟨rest, left, rfl⟩ := List.mem_map.mp tried
      have read := after_eq (Option.mem_toList.mp left)
      rw [read]
      refine ⟨List.suffix_append literal rest, ?_⟩
      intro char needed
      exact List.mem_append_left rest (List.contains_iff_mem.mp needed)
  | one test =>
      cases input with
      | nil => cases tried
      | cons char rest =>
          rw [attempts_one_cons] at tried
          split at tried
          · rw [List.mem_singleton.mp tried]
            exact ⟨List.suffix_cons char rest, fun _ needed => by cases needed⟩
          · cases tried
  | run test isLazy =>
      obtain ⟨rest, left, rfl⟩ := List.mem_map.mp tried
      have suffix : rest <:+ input := by
        split at left
        · exact afterRun_suffix (List.mem_reverse.mp left)
        · exact afterRun_suffix left
      exact ⟨suffix, fun _ needed => by cases needed⟩
  | seq first second firstIh secondIh =>
      obtain ⟨head, begun, rest⟩ := List.mem_flatMap.mp tried
      obtain ⟨tail, ended, rfl⟩ := List.mem_map.mp rest
      obtain ⟨headLeft, headReads⟩ := firstIh begun
      obtain ⟨tailLeft, tailReads⟩ := secondIh ended
      refine ⟨tailLeft.trans headLeft, ?_⟩
      intro char needed
      rcases Bool.or_eq_true_iff.mp needed with early | late
      · exact headReads char early
      · exact headLeft.subset (tailReads char late)
  | alt first second firstIh secondIh =>
      rcases List.mem_append.mp tried with left | right
      · obtain ⟨here, taken, rfl⟩ := List.mem_map.mp left
        obtain ⟨suffix, reads⟩ := firstIh taken
        exact ⟨suffix, fun char needed => reads char (Bool.and_eq_true_iff.mp needed).1⟩
      · obtain ⟨here, taken, rfl⟩ := List.mem_map.mp right
        obtain ⟨suffix, reads⟩ := secondIh taken
        exact ⟨suffix, fun char needed => reads char (Bool.and_eq_true_iff.mp needed).2⟩
  | opt body ih =>
      rcases List.mem_append.mp tried with taken | skipped
      · exact ⟨(ih taken).1, fun _ needed => by cases needed⟩
      · rw [List.mem_singleton.mp skipped]
        exact ⟨List.suffix_rfl, fun _ needed => by cases needed⟩
  | group body ih =>
      obtain ⟨here, taken, rfl⟩ := List.mem_map.mp tried
      obtain ⟨suffix, reads⟩ := ih taken
      exact ⟨suffix, reads⟩

theorem matchStart_needs {pattern : Regex} {input : List Char} {groups : Groups}
    (found : pattern.matchStart input = some groups) {char : Char}
    (needed : pattern.needs char = true) : char ∈ input := by
  obtain ⟨first, head, _⟩ := Option.map_eq_some_iff.mp found
  exact (attempts_spec (List.mem_of_mem_head? head)).2 char needed

theorem search_eq_none {pattern : Regex} {input : List Char} {char : Char}
    (needed : pattern.needs char = true) (absent : char ∉ input) : pattern.search input = none := by
  have nowhere : ∀ {text : List Char}, char ∉ text → pattern.matchStart text = none := by
    intro text missing
    cases found : pattern.matchStart text with
    | none => rfl
    | some groups => exact absurd (matchStart_needs found needed) missing
  induction input with
  | nil => exact nowhere absent
  | cons head rest ih =>
      rw [search_cons, nowhere absent]
      exact ih (fun member => absent (List.mem_cons_of_mem head member))

/-! ### The attempts, one constructor at a time -/

theorem after_append (literal rest : List Char) : after literal (literal ++ rest) = some rest := by
  induction literal with
  | nil => rfl
  | cons char literal ih =>
      rw [List.cons_append, after_cons, if_pos rfl]
      exact ih

theorem attempts_text (literal rest : List Char) :
    (text literal).attempts (literal ++ rest) = [([], rest)] := by
  show (after literal (literal ++ rest)).toList.map (fun rest => ([], rest)) = _
  rw [after_append]
  rfl

theorem mem_text {literal input : List Char} {found : Groups × List Char} :
    found ∈ (text literal).attempts input ↔ found.1 = [] ∧ input = literal ++ found.2 := by
  constructor
  · intro tried
    obtain ⟨rest, left, same⟩ := List.mem_map.mp tried
    rw [← same]
    exact ⟨rfl, after_eq (Option.mem_toList.mp left)⟩
  · rintro ⟨none, split⟩
    rw [split, attempts_text, List.mem_singleton]
    exact Prod.ext none rfl

theorem mem_seq {first second : Regex} {input : List Char} {found : Groups × List Char} :
    found ∈ (seq first second).attempts input ↔ ∃ head ∈ first.attempts input,
      ∃ tail ∈ second.attempts head.2, found = (head.1 ++ tail.1, tail.2) := by
  simp only [attempts_seq, List.mem_flatMap, List.mem_map, eq_comm]

/-- After a part that matches in one way only, the rest of the pattern matches as alone. -/
theorem attempts_seq_single {first second : Regex} {input rest : List Char}
    (single : first.attempts input = [([], rest)]) :
    (seq first second).attempts input = second.attempts rest := by
  simp only [attempts_seq, single, List.flatMap_cons, List.flatMap_nil, List.nil_append,
    List.append_nil, List.map_id']

theorem mem_afterRun {test : Char → Bool} {input rest : List Char} :
    rest ∈ afterRun test input ↔
      ∃ taken, taken ≠ [] ∧ input = taken ++ rest ∧ ∀ char ∈ taken, test char = true := by
  induction input with
  | nil =>
      refine ⟨nofun, ?_⟩
      rintro ⟨taken, present, split, _⟩
      exact absurd (List.append_eq_nil_iff.mp split.symm).1 present
  | cons char input ih =>
      rw [afterRun_cons]
      by_cases passes : test char = true
      · rw [if_pos passes, List.mem_append, List.mem_singleton, ih]
        constructor
        · rintro (⟨taken, _, split, all⟩ | same)
          · refine ⟨char :: taken, List.cons_ne_nil _ _, ?_, ?_⟩
            · rw [split, List.cons_append]
            · exact List.forall_mem_cons.mpr ⟨passes, all⟩
          · refine ⟨[char], List.cons_ne_nil _ _, ?_, ?_⟩
            · rw [same, List.singleton_append]
            · exact List.forall_mem_singleton.mpr passes
        · rintro ⟨taken, present, split, all⟩
          cases taken with
          | nil => exact absurd rfl present
          | cons head taken =>
              obtain ⟨_, remains⟩ := List.cons.inj split
              cases taken with
              | nil => exact Or.inr remains.symm
              | cons next taken =>
                  refine Or.inl ⟨next :: taken, List.cons_ne_nil _ _, remains, ?_⟩
                  exact (List.forall_mem_cons.mp all).2
      · rw [if_neg passes]
        refine ⟨nofun, ?_⟩
        rintro ⟨taken, present, split, all⟩
        cases taken with
        | nil => exact absurd rfl present
        | cons head taken =>
            obtain ⟨same, _⟩ := List.cons.inj split
            rw [same] at passes
            exact absurd (all head (List.mem_cons_self ..)) passes

theorem mem_star {test : Char → Bool} {isLazy : Bool} {input : List Char}
    {found : Groups × List Char} :
    found ∈ (opt (run test isLazy)).attempts input ↔
      found.1 = [] ∧ ∃ taken, input = taken ++ found.2 ∧ ∀ char ∈ taken, test char = true := by
  have runs : found ∈ (run test isLazy).attempts input ↔
      found.1 = [] ∧ found.2 ∈ afterRun test input := by
    rw [attempts_run, List.mem_map]
    constructor
    · rintro ⟨rest, member, rfl⟩
      refine ⟨rfl, ?_⟩
      cases isLazy with
      | true => exact List.mem_reverse.mp member
      | false => exact member
    · rintro ⟨none, member⟩
      refine ⟨found.2, ?_, Prod.ext none.symm rfl⟩
      cases isLazy with
      | true => exact List.mem_reverse.mpr member
      | false => exact member
  have shape : (opt (run test isLazy)).attempts input =
      (run test isLazy).attempts input ++ [([], input)] := rfl
  rw [shape, List.mem_append, List.mem_singleton, runs, mem_afterRun]
  constructor
  · rintro (⟨none, taken, _, split, all⟩ | same)
    · exact ⟨none, taken, split, all⟩
    · rw [same]
      exact ⟨rfl, [], rfl, nofun⟩
  · rintro ⟨none, taken, split, all⟩
    cases taken with
    | nil => exact Or.inr (Prod.ext none split.symm)
    | cons char taken =>
        exact Or.inl ⟨none, char :: taken, List.cons_ne_nil _ _, split, all⟩

theorem mem_seq_text {literal input : List Char} {second : Regex}
    {found : Groups × List Char} :
    found ∈ (seq (text literal) second).attempts input ↔
      ∃ rest, input = literal ++ rest ∧ found ∈ second.attempts rest := by
  rw [mem_seq]
  constructor
  · rintro ⟨head, opened, tail, tried, rfl⟩
    obtain ⟨none, split⟩ := mem_text.mp opened
    refine ⟨head.2, split, ?_⟩
    rw [none]
    exact tried
  · rintro ⟨rest, split, tried⟩
    exact ⟨([], rest), mem_text.mpr ⟨rfl, split⟩, found, tried, rfl⟩

theorem mem_seq_star {test : Char → Bool} {isLazy : Bool} {input : List Char} {second : Regex}
    {found : Groups × List Char} :
    found ∈ (seq (opt (run test isLazy)) second).attempts input ↔
      ∃ taken rest, input = taken ++ rest ∧ (∀ char ∈ taken, test char = true) ∧
        found ∈ second.attempts rest := by
  rw [mem_seq]
  constructor
  · rintro ⟨head, opened, tail, tried, rfl⟩
    obtain ⟨none, taken, split, all⟩ := mem_star.mp opened
    refine ⟨taken, head.2, split, all, ?_⟩
    rw [none]
    exact tried
  · rintro ⟨taken, rest, split, all, tried⟩
    exact ⟨([], rest), mem_star.mpr ⟨rfl, taken, split, all⟩, found, tried, rfl⟩

theorem mem_group {body : Regex} {input : List Char} {found : Groups × List Char} :
    found ∈ (group body).attempts input ↔ ∃ inner ∈ body.attempts input,
      found = (some (input.take (input.length - inner.2.length)) :: inner.1, inner.2) := by
  simp only [attempts_group, List.mem_map, eq_comm]

/-! ### Searching -/

theorem matchStart_mem {pattern : Regex} {input : List Char} {groups : Groups}
    (found : pattern.matchStart input = some groups) :
    ∃ rest, (groups, rest) ∈ pattern.attempts input := by
  obtain ⟨first, head, same⟩ := Option.map_eq_some_iff.mp found
  refine ⟨first.2, ?_⟩
  rw [← same]
  exact List.mem_of_head? head

/-- Attempts that all capture the same leave no choice. -/
theorem matchStart_of_mem {pattern : Regex} {input : List Char} {found : Groups × List Char}
    (tried : found ∈ pattern.attempts input)
    (same : ∀ other ∈ pattern.attempts input, other.1 = found.1) :
    pattern.matchStart input = some found.1 := by
  rw [matchStart_eq]
  cases attempted : pattern.attempts input with
  | nil =>
      rw [attempted] at tried
      cases tried
  | cons first rest =>
      have head := same first (by rw [attempted]; exact List.mem_cons_self ..)
      rw [List.head?_cons, Option.map_some, head]

theorem search_of_match {pattern : Regex} {input : List Char} {groups : Groups}
    (found : pattern.matchStart input = some groups) : pattern.search input = some groups := by
  cases input with
  | nil => exact found
  | cons char rest => rw [search_cons, found]

theorem search_mem {pattern : Regex} {input : List Char} {groups : Groups}
    (found : pattern.search input = some groups) :
    ∃ skip start rest, input = skip ++ start ∧ (groups, rest) ∈ pattern.attempts start := by
  induction input with
  | nil =>
      obtain ⟨rest, tried⟩ := matchStart_mem found
      exact ⟨[], [], rest, rfl, tried⟩
  | cons char input ih =>
      rw [search_cons] at found
      split at found
      · rename_i here
        cases found
        obtain ⟨rest, tried⟩ := matchStart_mem here
        exact ⟨[], char :: input, rest, rfl, tried⟩
      · obtain ⟨skip, start, rest, split, tried⟩ := ih found
        exact ⟨char :: skip, start, rest, by rw [split, List.cons_append], tried⟩

theorem search_skip {pattern : Regex} {skip rest : List Char}
    (barren : ∀ char ∈ skip, ∀ more, pattern.attempts (char :: more) = []) :
    pattern.search (skip ++ rest) = pattern.search rest := by
  induction skip with
  | nil => rfl
  | cons char skip ih =>
      have here : pattern.matchStart (char :: (skip ++ rest)) = none := by
        rw [matchStart_eq, barren char (List.mem_cons_self ..)]
        rfl
      rw [List.cons_append, search_cons, here]
      exact ih fun other member => barren other (List.mem_cons_of_mem _ member)

/-! ### A lazy run up to a literal -/

/-- A lazy run of any characters tries every rest of the input, the longest first. -/
theorem attempts_lazy (input : List Char) :
    (alt (text []) (run (fun _ => true) true)).attempts input =
      input.tails.map fun rest => ([], rest) := by
  have runs : ∀ input, (afterRun (fun _ => true) input).reverse = input.tails.tail := by
    intro input
    induction input with
    | nil => rfl
    | cons char rest ih =>
        rw [afterRun_cons, if_pos rfl, List.reverse_append, ih]
        cases rest with
        | nil => rfl
        | cons next rest => rfl
  have start := attempts_text [] input
  show ((text []).attempts input).map (fun found => (found.1 ++ [], found.2)) ++
    ((afterRun (fun _ => true) input).reverse.map fun rest => ([], rest)).map
      (fun found => ([] ++ found.1, found.2)) = _
  rw [List.nil_append] at start
  rw [start, runs, List.map_map]
  cases input with
  | nil => rfl
  | cons char rest => rfl

/-- The first rest of a text that serves, when the ones before it do not. -/
theorem findSome_tails {Found : Type} {serve : List Char → Option Found}
    {body good : List Char} {value : Found}
    (barren : ∀ front back, body = front ++ back → back ≠ [] → serve (back ++ good) = none)
    (serves : serve good = some value) : (body ++ good).tails.findSome? serve = some value := by
  induction body with
  | nil =>
      cases good with
      | nil => rw [List.nil_append, List.tails, List.findSome?_cons, serves]
      | cons char rest => rw [List.nil_append, List.tails_cons, List.findSome?_cons, serves]
  | cons char body ih =>
      have here := barren [] (char :: body) rfl (List.cons_ne_nil _ _)
      rw [List.cons_append] at here ⊢
      rw [List.tails_cons, List.findSome?_cons, here]
      apply ih
      intro front back split present
      exact barren (char :: front) back (by rw [split, List.cons_append]) present

/-- A lazy run ends where the literal behind it stands first. -/
theorem head_lazy {mark body rest : List Char}
    (first : ∀ front back, body = front ++ back → back ≠ [] →
      ¬mark <+: back ++ (mark ++ rest)) :
    ((seq (group (alt (text []) (run (fun _ => true) true))) (text mark)).attempts
      (body ++ (mark ++ rest))).head? = some ([some body], rest) := by
  have bodies : (group (alt (text []) (run (fun _ => true) true))).attempts
      (body ++ (mark ++ rest)) = (body ++ (mark ++ rest)).tails.map fun left =>
        ([some ((body ++ (mark ++ rest)).take ((body ++ (mark ++ rest)).length - left.length))],
          left) := by
    rw [attempts_group, attempts_lazy, List.map_map]
    rfl
  rw [attempts_seq, bodies, List.head?_flatMap, List.findSome?_map]
  apply findSome_tails
  · intro front back split present
    have barren : (text mark).attempts (back ++ (mark ++ rest)) = [] := by
      apply List.eq_nil_iff_forall_not_mem.mpr
      intro found tried
      exact first front back split present ⟨found.2, (mem_text.mp tried).2.symm⟩
    simp only [Function.comp_apply, barren, List.map_nil, List.head?_nil]
  · have taken : (body ++ (mark ++ rest)).take
        ((body ++ (mark ++ rest)).length - (mark ++ rest).length) = body := by
      rw [List.length_append, Nat.add_sub_cancel, List.take_left']
      rfl
    simp only [Function.comp_apply, attempts_text, taken, List.map_cons, List.head?_cons,
      List.append_nil]

/-! ### The first attempt -/

/-- The attempt that a backtracking matcher stops at. -/
def firstAttempt (pattern : Regex) (input : List Char) : Option (Groups × List Char) :=
  (pattern.attempts input).head?

theorem firstAttempt_eq (pattern : Regex) (input : List Char) :
    pattern.firstAttempt input = (pattern.attempts input).head? := rfl

theorem matchStart_of_first {pattern : Regex} {input : List Char} {found : Groups × List Char}
    (first : pattern.firstAttempt input = some found) :
    pattern.matchStart input = some found.1 := by
  rw [firstAttempt_eq] at first
  rw [matchStart_eq, first, Option.map_some]

theorem firstAttempt_text (literal rest : List Char) :
    (text literal).firstAttempt (literal ++ rest) = some ([], rest) := by
  rw [firstAttempt_eq, attempts_text]
  rfl

theorem firstAttempt_seq {first second : Regex} {input middle rest : List Char}
    {one two : Groups} (begins : first.firstAttempt input = some (one, middle))
    (goes : second.firstAttempt middle = some (two, rest)) :
    (seq first second).firstAttempt input = some (one ++ two, rest) := by
  rw [firstAttempt_eq] at begins goes ⊢
  rw [attempts_seq, List.head?_flatMap]
  obtain ⟨others, listed⟩ := List.head?_eq_some_iff.mp begins
  rw [listed, List.findSome?_cons, List.head?_map, goes]
  rfl

theorem head_afterRun {test : Char → Bool} {taken rest : List Char} (present : taken ≠ [])
    (all : ∀ char ∈ taken, test char = true) (stops : ∀ char ∈ rest.head?, test char = false) :
    (afterRun test (taken ++ rest)).head? = some rest := by
  have nothing : afterRun test rest = [] := by
    cases rest with
    | nil => rfl
    | cons char more =>
        rw [afterRun_cons, stops char rfl, if_neg Bool.false_ne_true]
  induction taken with
  | nil => exact absurd rfl present
  | cons char taken ih =>
      rw [List.cons_append, afterRun_cons, if_pos (all char (List.mem_cons_self ..))]
      cases taken with
      | nil =>
          rw [List.nil_append, nothing]
          rfl
      | cons next taken =>
          have later := ih (List.cons_ne_nil _ _) fun other member =>
            all other (List.mem_cons_of_mem _ member)
          rw [List.head?_append, later]
          rfl

theorem firstAttempt_run {test : Char → Bool} {taken rest : List Char} (present : taken ≠ [])
    (all : ∀ char ∈ taken, test char = true) (stops : ∀ char ∈ rest.head?, test char = false) :
    (group (run test false)).firstAttempt (taken ++ rest) = some ([some taken], rest) := by
  have cut : (taken ++ rest).take ((taken ++ rest).length - rest.length) = taken := by
    rw [List.length_append, Nat.add_sub_cancel, List.take_left']
    rfl
  rw [firstAttempt_eq, attempts_group, List.head?_map]
  simp only [attempts_run, Bool.false_eq_true, if_false, List.head?_map]
  rw [head_afterRun present all stops]
  simp only [Option.map_some, cut]

/-- Where only one attempt of the first part lets the second part match, it is the one. -/
theorem firstAttempt_seq_only {first second : Regex} {input : List Char}
    {found : Groups × List Char} (tried : found ∈ first.attempts input)
    (only : ∀ other ∈ first.attempts input, other = found ∨ second.attempts other.2 = []) :
    (seq first second).firstAttempt input =
      (second.firstAttempt found.2).map fun tail => (found.1 ++ tail.1, tail.2) := by
  rw [firstAttempt_eq, attempts_seq, List.head?_flatMap]
  simp only [List.head?_map, firstAttempt_eq]
  generalize first.attempts input = attempted at tried only
  induction attempted with
  | nil => cases tried
  | cons head others ih =>
      rw [List.findSome?_cons]
      rcases only head (List.mem_cons_self ..) with rfl | barren
      · cases ended : (second.attempts head.2).head? with
        | some tail => rfl
        | none =>
            rw [Option.map_none]
            dsimp only
            rw [List.findSome?_eq_none_iff]
            intro other member
            rcases only other (List.mem_cons_of_mem _ member) with rfl | nothing
            · rw [ended]
              rfl
            · rw [nothing]
              rfl
      · rw [barren, List.head?_nil, Option.map_none]
        rcases List.mem_cons.mp tried with rfl | later
        · rw [barren, List.head?_nil, Option.map_none]
          dsimp only
          rw [List.findSome?_eq_none_iff]
          intro other member
          rcases only other (List.mem_cons_of_mem _ member) with rfl | nothing
          · rw [barren]
            rfl
          · rw [nothing]
            rfl
        · exact ih later fun other member => only other (List.mem_cons_of_mem _ member)

/-- A greedy run up to a sign that stands in the input once. -/
theorem firstAttempt_star {test : Char → Bool} {isLazy : Bool} {second : Regex} {sign : Char}
    {before after : List Char} (all : ∀ char ∈ before, test char = true) (fresh : sign ∉ before)
    (once : sign ∉ after)
    (starts : ∀ input, second.attempts input ≠ [] → input.head? = some sign) :
    (seq (opt (run test isLazy)) second).firstAttempt (before ++ sign :: after) =
      second.firstAttempt (sign :: after) := by
  have only : ∀ other ∈ (opt (run test isLazy)).attempts (before ++ sign :: after),
      other = ([], sign :: after) ∨ second.attempts other.2 = [] := by
    intro other tried
    obtain ⟨none, taken, split, _⟩ := mem_star.mp tried
    by_cases barren : second.attempts other.2 = []
    · exact Or.inr barren
    · left
      obtain ⟨more, remains⟩ := List.head?_eq_some_iff.mp (starts other.2 barren)
      rw [remains] at split
      have same := (List.append_cons_inj_of_notMem fresh once).mp split
      exact Prod.ext none (by rw [remains, same.2.2])
  have tried : (([], sign :: after) : Groups × List Char) ∈
      (opt (run test isLazy)).attempts (before ++ sign :: after) :=
    mem_star.mpr ⟨rfl, before, rfl, all⟩
  rw [firstAttempt_seq_only tried only]
  simp

/-- A pattern that begins with a literal matches nowhere else. -/
theorem starts_of_seq_text {sign : Char} {literal input : List Char} {second : Regex}
    (tried : (seq (text (sign :: literal)) second).attempts input ≠ []) :
    input.head? = some sign := by
  obtain ⟨found, member⟩ := List.exists_mem_of_ne_nil _ tried
  obtain ⟨rest, split, _⟩ := mem_seq_text.mp member
  rw [split]
  rfl

theorem matchStart_text (literal input : List Char) :
    (text literal).matchStart input = if literal.isPrefixOf input then some [] else none := by
  by_cases begins : literal.isPrefixOf input = true
  · obtain ⟨rest, split⟩ := List.isPrefixOf_iff_prefix.mp begins
    rw [if_pos begins, ← split]
    exact matchStart_of_first (firstAttempt_text literal rest)
  · rw [if_neg begins]
    cases found : (text literal).matchStart input with
    | none => rfl
    | some groups =>
        obtain ⟨rest, tried⟩ := matchStart_mem found
        rw [(mem_text.mp tried).2, List.isPrefixOf_iff_prefix] at begins
        exact absurd (List.prefix_append literal rest) begins

/-- A pattern that begins with a literal does not match behind another sign. -/
theorem matchStart_foreign {sign : Char} {literal input : List Char} {second : Regex}
    (foreign : input.head? ≠ some sign) :
    (seq (text (sign :: literal)) second).matchStart input = none := by
  rw [matchStart_eq]
  have barren : (seq (text (sign :: literal)) second).attempts input = [] := by
    by_contra tried
    exact foreign (starts_of_seq_text tried)
  rw [barren]
  rfl

/-- A literal in front of a pattern is read and the pattern matches as alone. -/
theorem matchStart_seq_text (literal rest : List Char) (second : Regex) :
    (seq (text literal) second).matchStart (literal ++ rest) = second.matchStart rest := by
  rw [matchStart_eq, matchStart_eq, attempts_seq_single (attempts_text literal rest)]

/-- A run of a class up to a sign outside the class that the rest of the pattern begins with. -/
theorem matchStart_run_seq {test : Char → Bool} {second : Regex} {sign : Char}
    {taken rest : List Char} (present : taken ≠ []) (all : ∀ char ∈ taken, test char = true)
    (stops : test sign = false)
    (starts : ∀ input, second.attempts input ≠ [] → input.head? = some sign) :
    (seq (group (run test false)) second).matchStart (taken ++ sign :: rest) =
      (second.matchStart (sign :: rest)).map fun groups => some taken :: groups := by
  have ended : ∀ {text more : List Char}, (∀ char ∈ text, test char = true) →
      (text ++ sign :: more).takeWhile test = text := by
    intro text more passes
    rw [List.takeWhile_append_of_pos passes, List.takeWhile_cons, if_neg (by simp [stops]),
      List.append_nil]
  have cut : (taken ++ sign :: rest).take ((taken ++ sign :: rest).length - (sign :: rest).length) =
      taken := by
    rw [List.length_append, Nat.add_sub_cancel, List.take_left']
    rfl
  have ends : ∀ other, other ∈ (run test false).attempts (taken ++ sign :: rest) ↔
      other.1 = [] ∧ other.2 ∈ afterRun test (taken ++ sign :: rest) := by
    intro other
    simp only [attempts_run, Bool.false_eq_true, if_false]
    rw [List.mem_map]
    constructor
    · rintro ⟨left, member, rfl⟩
      exact ⟨rfl, member⟩
    · rintro ⟨none, member⟩
      exact ⟨other.2, member, Prod.ext none.symm rfl⟩
  have tried : (([some taken], sign :: rest) : Groups × List Char) ∈
      (group (run test false)).attempts (taken ++ sign :: rest) := by
    refine mem_group.mpr ⟨([], sign :: rest), (ends _).mpr ⟨rfl, ?_⟩, ?_⟩
    · exact mem_afterRun.mpr ⟨taken, present, rfl, all⟩
    · rw [cut]
  have only : ∀ other ∈ (group (run test false)).attempts (taken ++ sign :: rest),
      other = ([some taken], sign :: rest) ∨ second.attempts other.2 = [] := by
    intro other member
    obtain ⟨inner, ran, rfl⟩ := mem_group.mp member
    obtain ⟨none, left⟩ := (ends inner).mp ran
    obtain ⟨front, _, split, passes⟩ := mem_afterRun.mp left
    by_cases barren : second.attempts inner.2 = []
    · exact Or.inr barren
    · left
      obtain ⟨more, remains⟩ := List.head?_eq_some_iff.mp (starts inner.2 barren)
      rw [remains] at split
      have same : taken = front := by rw [← ended all, split, ended passes]
      rw [same, List.append_cancel_left_eq] at split
      rw [none, remains, ← split, cut]
  have first := firstAttempt_seq_only tried only
  rw [firstAttempt_eq] at first
  rw [matchStart_eq, matchStart_eq, first, firstAttempt_eq, Option.map_map, Option.map_map]
  rfl

end Regex
