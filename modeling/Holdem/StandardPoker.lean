import Holdem.Evaluator
import Mathlib.Data.List.Lex
import Mathlib.Data.List.MinMax
import Mathlib.Data.Prod.Lex

set_option autoImplicit false

/- The usual ranking of poker hands, stated on its own: what a hand of five cards is worth,
and what a larger collection is worth through its best five. -/
namespace Holdem.StandardPoker

def ranksDown : List Nat := [14, 13, 12, 11, 10, 9, 8, 7, 6, 5, 4, 3, 2]

/-- The ranks of which a hand holds exactly so many cards, highest first. -/
def ranksHeld (cards : List Card) (copies : Nat) : List Nat :=
  ranksDown.filter fun rank => (cards.map Card.rank).count rank == copies

def suited (cards : List Card) : Bool :=
  cards.all fun card => cards.all fun other => card.suit == other.suit

/-- The top of a straight. The ace also stands below the two, in the lowest straight only. -/
def straightTop (cards : List Card) : Option Nat :=
  match ranksHeld cards 1 with
  | [first, second, third, fourth, fifth] =>
      if [first, second, third, fourth, fifth] = [14, 5, 4, 3, 2] then some 5
      else if first = second + 1 ∧ second = third + 1 ∧ third = fourth + 1 ∧ fourth = fifth + 1 then
        some first
      else none
  | _ => none

/-- The category of five cards, the best that applies. -/
def category (cards : List Card) : HandRank :=
  if suited cards ∧ straightTop cards = some 14 then .royalFlush
  else if suited cards ∧ (straightTop cards).isSome then .straightFlush
  else if (ranksHeld cards 4).length = 1 then .fourOfAKind
  else if (ranksHeld cards 3).length = 1 ∧ (ranksHeld cards 2).length = 1 then .fullHouse
  else if suited cards then .flush
  else if (straightTop cards).isSome then .straight
  else if (ranksHeld cards 3).length = 1 then .threeOfAKind
  else if (ranksHeld cards 2).length = 2 then .twoPair
  else if (ranksHeld cards 2).length = 1 then .onePair
  else .highCard

/-- What decides within a category: the top of a straight, else the ranks, those held more
often before those held less often. -/
def tiebreak (cards : List Card) : List Nat :=
  match straightTop cards with
  | some top => [top]
  | none => ranksHeld cards 4 ++ ranksHeld cards 3 ++ ranksHeld cards 2 ++ ranksHeld cards 1

/-- The worth of five cards: the category, then the tie-break, compared in this order. -/
def strength (cards : List Card) : ℕ ×ₗ List ℕ :=
  toLex ((category cards).value, tiebreak cards)

/-- The worth of a collection: that of its best five cards. -/
def best (cards : List Card) : WithBot (ℕ ×ₗ List ℕ) :=
  ((cards.sublistsLen 5).map strength).maximum

/-- The top of a straight flush, zero when the five cards are none. -/
def runTop (cards : List Card) : Nat :=
  if suited cards then (straightTop cards).getD 0 else 0

/-- The top of the highest straight flush in a collection, zero when it has none. -/
def bestRun (cards : List Card) : Nat :=
  ((cards.sublistsLen 5).map runTop).foldr max 0

/-- The collection holds A-2-3-4-5 in one suit. -/
def holdsSteelWheel (cards : List Card) : Bool :=
  (cards.sublistsLen 5).any fun five => runTop five == 5

/-! ### The worth of five cards -/

variable {cards : List Card}

theorem ranksDown_decreasing : ranksDown.Pairwise (· > ·) := by decide

theorem ranksHeld_decreasing (cards : List Card) (copies : Nat) : (ranksHeld cards copies).Pairwise (· > ·) :=
  ranksDown_decreasing.filter _

theorem mem_ranksDown {rank : Nat} : rank ∈ ranksDown ↔ 2 ≤ rank ∧ rank ≤ 14 := by
  simp only [ranksDown, List.mem_cons, List.not_mem_nil, or_false]
  omega

theorem ranksHeld_of_straight {top : Nat} (straight : straightTop cards = some top) :
    (top = 5 ∧ ranksHeld cards 1 = [14, 5, 4, 3, 2]) ∨
      (6 ≤ top ∧ top ≤ 14 ∧
        ranksHeld cards 1 = [top, top - 1, top - 2, top - 3, top - 4]) := by
  have inside : ∀ rank ∈ ranksHeld cards 1, 2 ≤ rank ∧ rank ≤ 14 := fun rank member =>
    mem_ranksDown.mp (List.mem_of_mem_filter member)
  unfold straightTop at straight
  split at straight
  · rename_i first second third fourth fifth held
    have high := inside first (by simp [held])
    have low := inside fifth (by simp [held])
    split at straight
    · rename_i lowest
      cases straight
      exact Or.inl ⟨rfl, held.trans lowest⟩
    · split at straight
      · rename_i steps
        cases straight
        refine Or.inr ⟨by omega, high.2, ?_⟩
        rw [held]
        simp only [List.cons.injEq, and_true, true_and]
        omega
      · cases straight
  · cases straight

theorem straightTop_bounds {top : Nat} (straight : straightTop cards = some top) :
    5 ≤ top ∧ top ≤ 14 := by
  rcases ranksHeld_of_straight straight with ⟨rfl, _⟩ | ⟨low, high, _⟩ <;> omega

theorem straightTop_of_runTop (run : runTop cards ≠ 0) :
    suited cards = true ∧ straightTop cards = some (runTop cards) := by
  have flush : suited cards = true := by
    by_contra mixed
    simp [runTop, mixed] at run
  cases found : straightTop cards with
  | none => simp [runTop, found] at run
  | some top => simp [runTop, flush, found]

theorem runTop_bounds (cards : List Card) : runTop cards = 0 ∨ (5 ≤ runTop cards ∧ runTop cards ≤ 14) := by
  unfold runTop
  split
  · cases straight : straightTop cards with
    | none => exact Or.inl rfl
    | some top => exact Or.inr (straightTop_bounds straight)
  · exact Or.inl rfl

/-- A hand that is no straight flush is worth less than every straight flush. -/
theorem category_of_no_run (none : runTop cards = 0) : (category cards).value ≤ 8 := by
  have plain : ¬ (suited cards = true ∧ (straightTop cards).isSome = true) := by
    rintro ⟨flush, straight⟩
    obtain ⟨top, found⟩ := Option.isSome_iff_exists.mp straight
    have low := (straightTop_bounds found).1
    simp only [runTop, flush, found, ↓reduceIte, Option.getD_some] at none
    omega
  have notRoyal : ¬ (suited cards = true ∧ straightTop cards = some 14) := by
    rintro ⟨flush, royal⟩
    exact plain ⟨flush, by rw [royal]; rfl⟩
  unfold category
  rw [if_neg notRoyal, if_neg plain]
  split_ifs <;> decide

/-- A straight flush is worth its top; the highest one is the royal flush. -/
theorem strength_of_run (run : runTop cards ≠ 0) :
    strength cards = toLex (if runTop cards = 14 then 10 else 9, [runTop cards]) := by
  obtain ⟨flush, found⟩ := straightTop_of_runTop run
  unfold strength category tiebreak
  by_cases royal : runTop cards = 14
  · simp [flush, found, royal, HandRank.value]
  · simp [flush, found, royal, HandRank.value]

theorem singleton_le_singleton {left right : Nat} : [left] ≤ [right] ↔ left ≤ right := by
  rw [← not_lt, ← not_lt, List.cons_lt_cons_iff]
  simp

/-- Being worth at least a straight flush is holding one at least as high. -/
theorem run_le_strength_iff {top : Nat} (low : 1 ≤ top) (high : top ≤ 14) :
    toLex (9, [top]) ≤ strength cards ↔ top ≤ runTop cards := by
  rcases runTop_bounds cards with none | ⟨least, most⟩
  · have worth := category_of_no_run none
    have below : strength cards < toLex (9, [top]) := by
      unfold strength
      rw [Prod.Lex.toLex_lt_toLex]
      exact Or.inl (by omega)
    constructor
    · intro above
      exact absurd below (not_lt.mpr above)
    · omega
  · rw [strength_of_run (by omega), Prod.Lex.toLex_le_toLex]
    split
    · rename_i royal
      simp only [royal]
      constructor
      · intro _
        exact high
      · intro _
        exact Or.inl (by omega)
    · simp [singleton_le_singleton]

/-- Nothing is worth more than a royal flush. -/
theorem strength_le_royal : strength cards ≤ toLex (10, [14]) := by
  rcases runTop_bounds cards with none | ⟨least, most⟩
  · have worth := category_of_no_run none
    unfold strength
    rw [Prod.Lex.toLex_le_toLex]
    exact Or.inl (by omega)
  · rw [strength_of_run (by omega), Prod.Lex.toLex_le_toLex]
    split
    · rename_i royal
      rw [royal]
      exact Or.inr ⟨rfl, le_refl _⟩
    · exact Or.inl (show 9 < 10 by decide)

/-! ### The worth of a collection -/

theorem le_foldr_max_iff {values : List Nat} {bound : Nat} (positive : 0 < bound) :
    bound ≤ values.foldr max 0 ↔ ∃ value ∈ values, bound ≤ value := by
  induction values with
  | nil =>
      simp only [List.foldr_nil, List.not_mem_nil, false_and, exists_false, iff_false]
      omega
  | cons value rest ih =>
      rw [List.foldr_cons, le_max_iff, ih]
      simp

theorem le_bestRun_iff {top : Nat} (low : 1 ≤ top) :
    top ≤ bestRun cards ↔ ∃ five ∈ cards.sublistsLen 5, top ≤ runTop five := by
  unfold bestRun
  rw [le_foldr_max_iff low]
  simp

theorem holdsSteelWheel_iff :
    holdsSteelWheel cards = true ↔ ∃ five ∈ cards.sublistsLen 5, runTop five = 5 := by
  simp [holdsSteelWheel]

theorem best_eq_strength (enough : 5 ≤ cards.length) :
    ∃ five ∈ cards.sublistsLen 5, best cards = ↑(strength five) ∧
      ∀ other ∈ cards.sublistsLen 5, strength other ≤ strength five := by
  have first : cards.take 5 ∈ cards.sublistsLen 5 :=
    List.mem_sublistsLen.mpr ⟨List.take_sublist 5 cards, List.length_take_of_le enough⟩
  have some : best cards ≠ ⊥ := by
    apply List.maximum_ne_bot_of_ne_nil
    exact List.ne_nil_of_mem (List.mem_map_of_mem first)
  obtain ⟨worth, found⟩ := WithBot.ne_bot_iff_exists.mp some
  obtain ⟨member, most⟩ := List.maximum_eq_coe_iff.mp found.symm
  obtain ⟨five, inside, rfl⟩ := List.mem_map.mp member
  exact ⟨five, inside, found.symm, fun other there => most _ (List.mem_map_of_mem there)⟩

theorem best_le_royal (enough : 5 ≤ cards.length) : best cards ≤ ↑(toLex (10, [14])) := by
  obtain ⟨five, _, worth, _⟩ := best_eq_strength enough
  rw [worth, WithBot.coe_le_coe]
  exact strength_le_royal

theorem run_le_best_iff {top : Nat} (enough : 5 ≤ cards.length) (low : 1 ≤ top)
    (high : top ≤ 14) : ↑(toLex (9, [top])) ≤ best cards ↔ top ≤ bestRun cards := by
  obtain ⟨five, inside, worth, most⟩ := best_eq_strength enough
  rw [worth, WithBot.coe_le_coe, run_le_strength_iff low high, le_bestRun_iff low]
  constructor
  · intro above
    exact ⟨five, inside, above⟩
  · rintro ⟨other, there, above⟩
    exact (run_le_strength_iff low high).mp
      (le_trans ((run_le_strength_iff low high).mpr above) (most other there))

theorem mem_ranks_of_mem_ranksHeld {rank copies : Nat} (positive : 0 < copies)
    (member : rank ∈ ranksHeld cards copies) : rank ∈ cards.map Card.rank := by
  have held := (List.mem_filter.mp member).2
  apply List.count_pos_iff.mp
  rw [beq_iff_eq] at held
  omega

/-- Seven cards cannot hold both the lowest and the highest straight flush. -/
theorem bestRun_lt_of_wheel (few : cards.length ≤ 7) (wheel : holdsSteelWheel cards = true) :
    bestRun cards < 14 := by
  by_contra reached
  obtain ⟨low, lowIn, lowTop⟩ := holdsSteelWheel_iff.mp wheel
  obtain ⟨high, highIn, above⟩ := (le_bestRun_iff (by decide)).mp (not_lt.mp reached)
  have highTop : runTop high = 14 := by
    rcases runTop_bounds high with none | bounds <;> omega
  have wheelRanks : ranksHeld low 1 = [14, 5, 4, 3, 2] := by
    have run : runTop low ≠ 0 := by omega
    rcases ranksHeld_of_straight (straightTop_of_runTop run).2 with held | ⟨six, _⟩
    · exact held.2
    · omega
  have royalRanks : ranksHeld high 1 = [14, 13, 12, 11, 10] := by
    have run : runTop high ≠ 0 := by omega
    rcases ranksHeld_of_straight (straightTop_of_runTop run).2 with ⟨five, _⟩ | held
    · omega
    · rw [held.2.2, highTop]
  have ranks : ∀ {five : List Card} {rank : Nat}, five ∈ cards.sublistsLen 5 →
      rank ∈ ranksHeld five 1 → rank ∈ cards.map Card.rank := by
    intro five rank inside member
    exact (List.Sublist.map Card.rank (List.mem_sublistsLen.mp inside).1).subset
      (mem_ranks_of_mem_ranksHeld (by decide) member)
  have nine : [14, 5, 4, 3, 2, 13, 12, 11, 10] ⊆ cards.map Card.rank := by
    intro rank member
    have either : rank ∈ [14, 5, 4, 3, 2] ∨ rank ∈ [14, 13, 12, 11, 10] := by
      simp only [List.mem_cons, List.not_mem_nil, or_false] at member ⊢
      omega
    rcases either with lowest | highest
    · exact ranks lowIn (by rwa [wheelRanks])
    · exact ranks highIn (by rwa [royalRanks])
  have long := (List.subperm_of_subset (by decide) nine).length_le
  simp only [List.length_cons, List.length_nil, List.length_map] at long
  omega

/-- A collection with the lowest straight flush is worth its highest one. -/
theorem best_of_wheel (enough : 5 ≤ cards.length) (few : cards.length ≤ 7)
    (wheel : holdsSteelWheel cards = true) :
    5 ≤ bestRun cards ∧ best cards = ↑(toLex (9, [bestRun cards])) := by
  have notRoyal := bestRun_lt_of_wheel few wheel
  obtain ⟨low, lowIn, lowTop⟩ := holdsSteelWheel_iff.mp wheel
  have five : 5 ≤ bestRun cards := (le_bestRun_iff (by decide)).mpr ⟨low, lowIn, lowTop.ge⟩
  refine ⟨five, ?_⟩
  apply le_antisymm
  · obtain ⟨held, inside, worth, most⟩ := best_eq_strength enough
    have above : 5 ≤ runTop held := by
      apply (run_le_strength_iff (by decide) (by decide)).mp
      rw [← WithBot.coe_le_coe, ← worth]
      exact (run_le_best_iff enough (by decide) (by decide)).mpr five
    have below : runTop held ≤ bestRun cards :=
      (le_bestRun_iff (by omega)).mpr ⟨held, inside, le_refl _⟩
    rw [worth, strength_of_run (by omega), if_neg (by omega), WithBot.coe_le_coe,
      Prod.Lex.toLex_le_toLex]
    exact Or.inr ⟨rfl, singleton_le_singleton.mpr below⟩
  · exact (run_le_best_iff enough (by omega) (by omega)).mpr (le_refl _)

end Holdem.StandardPoker
