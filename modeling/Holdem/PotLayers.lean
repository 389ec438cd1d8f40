import Holdem.Payout
import Mathlib.Data.Finset.Dedup
import Mathlib.Data.List.Dedup
import Mathlib.Data.List.MinMax
import Mathlib.Data.List.Sort

set_option autoImplicit false

namespace Holdem

/-- Levels that `build_pot_layers` can walk from a previous level: increasing, above it,
and with every larger contribution among them. -/
structure Levels (contribMap : List (Int × Int)) (prev : Int) (levels : List Int) : Prop where
  increasing : levels.Pairwise (· < ·)
  above : ∀ level ∈ levels, prev < level
  covers : ∀ entry ∈ contribMap, entry.2 ≤ prev ∨ entry.2 ∈ levels
  paid : ∀ level ∈ levels, ∃ entry ∈ contribMap, entry.2 = level

theorem Levels.tail {contribMap : List (Int × Int)} {prev level : Int} {rest : List Int}
    (walk : Levels contribMap prev (level :: rest)) : Levels contribMap level rest := by
  obtain ⟨increasing, above, covers, paid⟩ := walk
  obtain ⟨least, ordered⟩ := List.pairwise_cons.mp increasing
  refine ⟨ordered, least, ?_, fun other member => paid other (List.mem_cons_of_mem _ member)⟩
  intro entry member
  rcases covers entry member with low | listed
  · have := above level (by simp)
    exact Or.inl (by omega)
  · rcases List.mem_cons.mp listed with same | later
    · exact Or.inl (Int.le_of_eq same)
    · exact Or.inr later

/-- No contribution lies between two neighbouring levels. -/
theorem Levels.below {contribMap : List (Int × Int)} {prev level : Int} {rest : List Int}
    (walk : Levels contribMap prev (level :: rest)) {entry : Int × Int}
    (member : entry ∈ contribMap) (short : ¬ level ≤ entry.2) : entry.2 ≤ prev := by
  rcases walk.covers entry member with low | listed
  · exact low
  · rcases List.mem_cons.mp listed with same | later
    · omega
    · have := (List.pairwise_cons.mp walk.increasing).1 entry.2 later
      omega

/-- The levels `build_pot_layers` starts with, when every contribution is positive. -/
theorem levels_uniqueLevels {contribMap : List (Int × Int)}
    (positive : ∀ entry ∈ contribMap, 0 < entry.2) :
    Levels contribMap 0 (uniqueLevels contribMap) := by
  have member : ∀ level, level ∈ uniqueLevels contribMap ↔
      ∃ entry ∈ contribMap, entry.2 = level := by
    intro level
    unfold uniqueLevels
    rw [(List.perm_insertionSort _ _).mem_iff, List.mem_dedup, List.mem_map]
  have sorted : (uniqueLevels contribMap).Pairwise (· ≤ ·) := List.pairwise_insertionSort _ _
  have distinct : (uniqueLevels contribMap).Nodup :=
    (List.perm_insertionSort _ _).nodup_iff.mpr (List.nodup_dedup _)
  refine ⟨?_, ?_, ?_, fun level listed => (member level).mp listed⟩
  · exact (sorted.and distinct).imp fun pair => lt_of_le_of_ne pair.1 pair.2
  · intro level listed
    obtain ⟨entry, inside, rfl⟩ := (member level).mp listed
    exact positive entry inside
  · exact fun entry inside => Or.inr ((member entry.2).mpr ⟨entry, inside, rfl⟩)

theorem potLayersFrom_cons {contribMap : List (Int × Int)} {prev level : Int} {rest : List Int}
    (walk : Levels contribMap prev (level :: rest)) :
    potLayersFrom contribMap prev (level :: rest) =
      ⟨(level - prev) * (contributorsAt contribMap level).length,
        contributorsAt contribMap level⟩ :: potLayersFrom contribMap level rest := by
  have above := walk.above level (by simp)
  simp only [potLayersFrom]
  rw [if_neg (by omega)]

/-- One layer takes from each contribution that reaches its level the part above the
previous one. -/
theorem layer_amount (contribMap : List (Int × Int)) (prev level : Int) :
    (level - prev) * (contributorsAt contribMap level).length =
      (contribMap.map fun entry => if level ≤ entry.2 then level - prev else 0).sum := by
  induction contribMap with
  | nil => simp [contributorsAt]
  | cons entry rest ih =>
      simp only [contributorsAt, List.length_map] at ih ⊢
      rw [List.map_cons, List.sum_cons, ← ih, List.filter_cons]
      split
      · rename_i reaches
        rw [if_pos (by simpa using reaches), List.length_cons]
        push_cast
        ring
      · rename_i short
        rw [if_neg (by simpa using short), Int.zero_add]

/-- The layers together hold every contribution above the level they start from. -/
theorem sum_potLayersFrom {contribMap : List (Int × Int)} {prev : Int} {levels : List Int}
    (walk : Levels contribMap prev levels) :
    ((potLayersFrom contribMap prev levels).map PotLayer.amount).sum =
      (contribMap.map fun entry => max 0 (entry.2 - prev)).sum := by
  induction levels generalizing prev with
  | nil =>
      symm
      apply List.sum_eq_zero
      intro part member
      obtain ⟨entry, inside, rfl⟩ := List.mem_map.mp member
      have low := (walk.covers entry inside).resolve_right (by simp)
      omega
  | cons level rest ih =>
      rw [potLayersFrom_cons walk, List.map_cons, List.sum_cons, ih walk.tail, layer_amount,
        ← List.sum_map_add]
      congr 1
      apply List.map_congr_left
      intro entry inside
      have above := walk.above level (by simp)
      split
      · omega
      · rename_i short
        have := walk.below inside short
        omega

theorem mem_potLayersFrom {contribMap : List (Int × Int)} {prev : Int} {levels : List Int}
    (walk : Levels contribMap prev levels) :
    (∀ layer ∈ potLayersFrom contribMap prev levels, 0 < layer.amount ∧
      ∃ level ∈ levels, layer.contributors = contributorsAt contribMap level) ∧
    ∀ level ∈ levels, ∃ layer ∈ potLayersFrom contribMap prev levels,
      layer.contributors = contributorsAt contribMap level := by
  induction levels generalizing prev with
  | nil => simp [potLayersFrom]
  | cons level rest ih =>
      obtain ⟨layers, reached⟩ := ih walk.tail
      rw [potLayersFrom_cons walk]
      constructor
      · intro layer member
        rcases List.mem_cons.mp member with rfl | later
        · refine ⟨?_, level, by simp, rfl⟩
          obtain ⟨entry, inside, paid⟩ := walk.paid level (by simp)
          have above := walk.above level (by simp)
          have someone : entry.1 ∈ contributorsAt contribMap level :=
            List.mem_map_of_mem (List.mem_filter.mpr ⟨inside, by simp [paid]⟩)
          have count := List.length_pos_of_mem someone
          exact Int.mul_pos (by omega) (by omega)
        · obtain ⟨amount, other, listed, same⟩ := layers layer later
          exact ⟨amount, other, List.mem_cons_of_mem _ listed, same⟩
      · intro other listed
        rcases List.mem_cons.mp listed with rfl | later
        · exact ⟨_, List.mem_cons_self .., rfl⟩
        · obtain ⟨layer, member, same⟩ := reached other later
          exact ⟨layer, List.mem_cons_of_mem _ member, same⟩

theorem sum_filtered_le {α : Type} {items : List α} {amount : α → Int} (keep : α → Bool)
    (positive : ∀ item ∈ items, 0 < amount item) :
    (items.map fun item => if keep item then amount item else 0).sum ≤ (items.map amount).sum ∧
      ((items.map fun item => if keep item then amount item else 0).sum = (items.map amount).sum ↔
        ∀ item ∈ items, keep item = true) := by
  induction items with
  | nil => simp
  | cons item rest ih =>
      obtain ⟨bound, equal⟩ := ih fun other member => positive other (List.mem_cons_of_mem _ member)
      have here := positive item (by simp)
      simp only [List.map_cons, List.sum_cons, List.forall_mem_cons, ← equal]
      split
      · rename_i kept
        exact ⟨by omega, by simp [kept]⟩
      · rename_i dropped
        refine ⟨by omega, ?_⟩
        simp only [dropped, Bool.false_eq_true, false_and, iff_false]
        omega

/-- All layers are claimed exactly when a showdown player is among the largest
contributors, or nothing was contributed. -/
theorem layers_claimed_iff {contribMap : List (Int × Int)} {showdownIds : List Int}
    (positive : ∀ entry ∈ contribMap, 0 < entry.2) :
    (∀ layer ∈ buildPotLayers contribMap, layer.claimed showdownIds = true) ↔
      contribMap = [] ∨ ∃ entry ∈ contribMap, entry.1 ∈ showdownIds ∧
        ∀ other ∈ contribMap, other.2 ≤ entry.2 := by
  have walk := levels_uniqueLevels positive
  obtain ⟨layers, reached⟩ := mem_potLayersFrom walk
  have claimedAt : ∀ {layer : PotLayer} {level : Int},
      layer.contributors = contributorsAt contribMap level →
      (layer.claimed showdownIds = true ↔
        ∃ entry ∈ contribMap, entry.1 ∈ showdownIds ∧ level ≤ entry.2) := by
    intro layer level same
    simp only [PotLayer.claimed, same, contributorsAt, List.any_eq_true, List.mem_map,
      List.mem_filter, decide_eq_true_eq]
    constructor
    · rintro ⟨id, ⟨entry, ⟨inside, high⟩, rfl⟩, listed⟩
      exact ⟨entry, inside, listed, high⟩
    · rintro ⟨entry, inside, listed, high⟩
      exact ⟨entry.1, ⟨entry, ⟨inside, high⟩, rfl⟩, listed⟩
  constructor
  · intro claimed
    cases listed : contribMap with
    | nil => exact Or.inl rfl
    | cons first rest =>
        rw [← listed]
        refine Or.inr ?_
        -- the level of a largest contribution has a layer, whose claimant is as large
        obtain ⟨top, chosen⟩ : ∃ top, top ∈ List.argmax Prod.snd contribMap := by
          cases found : List.argmax Prod.snd contribMap with
          | none => simp [listed] at found
          | some top => exact ⟨top, rfl⟩
        have topLevel : top.2 ∈ uniqueLevels contribMap := by
          have := positive top (List.argmax_mem chosen)
          exact (walk.covers top (List.argmax_mem chosen)).resolve_left (by omega)
        obtain ⟨layer, member, same⟩ := reached top.2 topLevel
        obtain ⟨entry, inside, shown, high⟩ := (claimedAt same).mp (claimed layer member)
        refine ⟨entry, inside, shown, ?_⟩
        intro other otherIn
        exact Int.le_trans (List.le_of_mem_argmax otherIn chosen) high
  · rintro (rfl | ⟨entry, inside, listed, largest⟩)
    · intro layer member
      obtain ⟨_, level, levelIn, _⟩ := layers layer member
      obtain ⟨payer, absent, _⟩ := walk.paid level levelIn
      cases absent
    · intro layer member
      obtain ⟨_, level, levelIn, same⟩ := layers layer member
      obtain ⟨payer, payerIn, rfl⟩ := walk.paid level levelIn
      exact (claimedAt same).mpr ⟨entry, inside, listed, largest payer payerIn⟩

/-! ### The shape of the layers -/

theorem mem_contributorsAt {contribMap : List (Int × Int)}
    (distinct : (contribMap.map Prod.fst).Nodup) {playerId paid : Int}
    (entry : (playerId, paid) ∈ contribMap) (level : Int) :
    playerId ∈ contributorsAt contribMap level ↔ level ≤ paid := by
  unfold contributorsAt
  rw [List.mem_map]
  constructor
  · rintro ⟨other, member, rfl⟩
    obtain ⟨inside, reaches⟩ := List.mem_filter.mp member
    have same : other = (other.1, paid) := List.inj_on_of_nodup_map distinct inside entry rfl
    rw [same] at reaches
    simpa using reaches
  · intro reaches
    exact ⟨(playerId, paid), List.mem_filter.mpr ⟨entry, by simpa using reaches⟩, rfl⟩

theorem contributorsAt_nodup {contribMap : List (Int × Int)}
    (distinct : (contribMap.map Prod.fst).Nodup) (level : Int) :
    (contributorsAt contribMap level).Nodup :=
  distinct.sublist (List.Sublist.map Prod.fst List.filter_sublist)

/-- From a level that somebody has paid exactly, he is missing at every higher one. -/
theorem contributorsAt_ssubset {contribMap : List (Int × Int)}
    (distinct : (contribMap.map Prod.fst).Nodup) {low high : Int} (above : low < high)
    (paid : ∃ entry ∈ contribMap, entry.2 = low) :
    (contributorsAt contribMap high).toFinset ⊂ (contributorsAt contribMap low).toFinset := by
  have fewer : (contributorsAt contribMap high).toFinset ⊆
      (contributorsAt contribMap low).toFinset := by
    intro playerId member
    rw [List.mem_toFinset] at member ⊢
    obtain ⟨entry, reaches, rfl⟩ := List.mem_map.mp member
    have inside := (List.mem_filter.mp reaches).1
    have most := (mem_contributorsAt distinct inside high).mp member
    exact (mem_contributorsAt distinct inside low).mpr (by omega)
  obtain ⟨entry, inside, exact⟩ := paid
  rw [Finset.ssubset_iff_of_subset fewer]
  refine ⟨entry.1, ?_, ?_⟩
  · rw [List.mem_toFinset, mem_contributorsAt distinct inside]
    omega
  · rw [List.mem_toFinset, mem_contributorsAt distinct inside]
    omega

theorem potLayersFrom_narrow {contribMap : List (Int × Int)} {prev : Int} {levels : List Int}
    (walk : Levels contribMap prev levels) (distinct : (contribMap.map Prod.fst).Nodup) :
    (potLayersFrom contribMap prev levels).Pairwise fun below above =>
      above.contributors.toFinset ⊂ below.contributors.toFinset := by
  induction levels generalizing prev with
  | nil => exact List.Pairwise.nil
  | cons level rest ih =>
      rw [potLayersFrom_cons walk]
      apply List.Pairwise.cons
      · intro above member
        obtain ⟨_, higher, listed, same⟩ := (mem_potLayersFrom walk.tail).1 above member
        rw [same]
        exact contributorsAt_ssubset distinct (walk.tail.above higher listed)
          (walk.paid level (by simp))
      · exact ih walk.tail

/-- Everybody who has paid more than the level before is in the first layer. -/
theorem potLayersFrom_first {contribMap : List (Int × Int)} {prev : Int} {levels : List Int}
    (walk : Levels contribMap prev levels) (distinct : (contribMap.map Prod.fst).Nodup)
    {entry : Int × Int} (inside : entry ∈ contribMap) (paid : prev < entry.2) :
    ∃ first, (potLayersFrom contribMap prev levels).head? = some first ∧
      entry.1 ∈ first.contributors := by
  have listed : entry.2 ∈ levels := (walk.covers entry inside).resolve_left (by omega)
  cases levels with
  | nil => cases listed
  | cons level rest =>
      rw [potLayersFrom_cons walk]
      refine ⟨_, rfl, ?_⟩
      rw [mem_contributorsAt distinct inside]
      by_contra short
      have low := walk.below inside short
      omega

/-- The number of its contributors divides the amount of a layer. -/
theorem potLayersFrom_divides {contribMap : List (Int × Int)} {prev : Int} {levels : List Int}
    (walk : Levels contribMap prev levels) :
    ∀ layer ∈ potLayersFrom contribMap prev levels,
      (layer.contributors.length : Int) ∣ layer.amount := by
  induction levels generalizing prev with
  | nil => simp [potLayersFrom]
  | cons level rest ih =>
      intro layer member
      rw [potLayersFrom_cons walk] at member
      rcases List.mem_cons.mp member with rfl | later
      · exact Int.dvd_mul_left ..
      · exact ih walk.tail layer later

/-- The equal shares of a contributor make up what he has paid above the level before. -/
theorem potLayersFrom_shares {contribMap : List (Int × Int)} {prev : Int} {levels : List Int}
    (walk : Levels contribMap prev levels) (distinct : (contribMap.map Prod.fst).Nodup)
    {entry : Int × Int} (inside : entry ∈ contribMap) :
    (((potLayersFrom contribMap prev levels).filter fun layer =>
        decide (entry.1 ∈ layer.contributors)).map fun layer =>
          layer.amount / (layer.contributors.length : Int)).sum = max 0 (entry.2 - prev) := by
  induction levels generalizing prev with
  | nil =>
      have low := (walk.covers entry inside).resolve_right (by simp)
      show 0 = max 0 (entry.2 - prev)
      omega
  | cons level rest ih =>
      have above := walk.above level (by simp)
      have listed := mem_contributorsAt distinct inside level
      rw [potLayersFrom_cons walk]
      by_cases reaches : level ≤ entry.2
      · have present := listed.mpr reaches
        have count : ((contributorsAt contribMap level).length : Int) ≠ 0 := by
          have some := List.length_pos_of_mem present
          omega
        rw [List.filter_cons_of_pos (by simpa using present), List.map_cons, List.sum_cons,
          ih walk.tail]
        have share : (level - prev) * ((contributorsAt contribMap level).length : Int) /
            ((contributorsAt contribMap level).length : Int) = level - prev :=
          Int.mul_ediv_cancel _ count
        dsimp only
        rw [share]
        omega
      · have absent := mt listed.mp reaches
        have low := walk.below inside reaches
        rw [List.filter_cons_of_neg (by simpa using absent), ih walk.tail]
        omega

/-- What `build_pot_layers` makes of positive contributions: layers of positive amounts that
add up to the contributions, each with fewer contributors than the one below and the first with
all of them, in which every contribution is the sum of equal shares. -/
theorem build_pot_layers_exact (contribMap : List (Int × Int))
    (distinct : (contribMap.map Prod.fst).Nodup) (positive : ∀ entry ∈ contribMap, 0 < entry.2) :
    (∀ layer ∈ buildPotLayers contribMap, 0 < layer.amount ∧ layer.contributors.Nodup ∧
        (layer.contributors.length : Int) ∣ layer.amount) ∧
      ((buildPotLayers contribMap).map PotLayer.amount).sum = (contribMap.map Prod.snd).sum ∧
      ((buildPotLayers contribMap).Pairwise fun below above =>
        above.contributors.toFinset ⊂ below.contributors.toFinset) ∧
      ∀ entry ∈ contribMap,
        (∃ first, (buildPotLayers contribMap).head? = some first ∧
          entry.1 ∈ first.contributors) ∧
        entry.2 = (((buildPotLayers contribMap).filter fun layer =>
          decide (entry.1 ∈ layer.contributors)).map fun layer =>
            layer.amount / (layer.contributors.length : Int)).sum := by
  have walk := levels_uniqueLevels positive
  refine ⟨?_, ?_, potLayersFrom_narrow walk distinct, ?_⟩
  · intro layer member
    obtain ⟨amount, level, _, same⟩ := (mem_potLayersFrom walk).1 layer member
    refine ⟨amount, ?_, potLayersFrom_divides walk layer member⟩
    rw [same]
    exact contributorsAt_nodup distinct level
  · have total := sum_potLayersFrom walk
    rw [buildPotLayers, total]
    congr 1
    apply List.map_congr_left
    intro entry inside
    have := positive entry inside
    omega
  · intro entry inside
    have paid := positive entry inside
    refine ⟨potLayersFrom_first walk distinct inside paid, ?_⟩
    rw [buildPotLayers, potLayersFrom_shares walk distinct inside]
    omega

/-- Two short all-ins and two equal bets make three layers. -/
theorem build_pot_layers_exact_three :
    ((buildPotLayers [(0, 50), (1, 120), (2, 200), (3, 200)]).map PotLayer.amount).sum = 570 ∧
      (120 : Int) = (((buildPotLayers [(0, 50), (1, 120), (2, 200), (3, 200)]).filter fun layer =>
        decide ((1 : Int) ∈ layer.contributors)).map fun layer =>
          layer.amount / (layer.contributors.length : Int)).sum := by
  obtain ⟨_, total, _, shares⟩ := build_pot_layers_exact
    [(0, 50), (1, 120), (2, 200), (3, 200)] (by decide) (by decide)
  exact ⟨total, (shares (1, 120) (by decide)).2⟩

end Holdem
