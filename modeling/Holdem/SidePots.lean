import Holdem.HandOrder
import Holdem.ShowdownFacts
import Mathlib.Algebra.Order.BigOperators.Group.List
import Mathlib.Order.WithBot

set_option autoImplicit false

namespace Holdem

/-! ### The winners of a layer -/

/-- How a hand compares, no hand at all below every hand. -/
def rated (hand : Option HandResult) : WithBot (ℕ ×ₗ List ℕ) := hand.map HandResult.worth

@[simp] theorem rated_some (hand : HandResult) : rated (some hand) = ↑hand.worth := rfl

@[simp] theorem rated_none : rated none = ⊥ := rfl

/-- One step of `determine_winner_ids` as a comparison with the best hand so far. -/
theorem considerWinner_cases (handsById : List (Int × HandResult))
    (state : List Int × Option HandResult) (playerId : Int) :
    let mine := rated (handsById.lookup playerId)
    let next := considerWinner handsById state playerId
    (rated state.2 < mine ∧ next = ([playerId], handsById.lookup playerId)) ∨
      (mine = rated state.2 ∧ mine ≠ ⊥ ∧ next = (state.1 ++ [playerId], state.2)) ∨
      ((mine < rated state.2 ∨ mine = ⊥) ∧ next = state) := by
  unfold considerWinner
  cases shown : handsById.lookup playerId with
  | none => exact Or.inr (Or.inr ⟨Or.inr rfl, rfl⟩)
  | some hand =>
      obtain ⟨winners, best⟩ := state
      cases best with
      | none => exact Or.inl ⟨WithBot.bot_lt_coe _, rfl⟩
      | some best =>
          simp only [rated_some, WithBot.coe_lt_coe, WithBot.coe_inj]
          by_cases beats : handBeats hand best = true
          · exact Or.inl ⟨(handBeats_iff hand best).mp beats, by rw [if_pos beats]⟩
          · rw [if_neg beats]
            by_cases ties : handTies hand best = true
            · rw [if_pos ties]
              exact Or.inr (Or.inl ⟨(handTies_iff hand best).mp ties, WithBot.coe_ne_bot, rfl⟩)
            · rw [if_neg ties]
              have above := mt (handBeats_iff hand best).mpr beats
              have apart := mt (handTies_iff hand best).mpr ties
              exact Or.inr (Or.inr ⟨Or.inl (lt_of_le_of_ne (not_lt.mp above) apart), rfl⟩)

/-- What the loop of `determine_winner_ids` knows after the ids it has seen. -/
structure BestSoFar (handsById : List (Int × HandResult)) (seen : List Int)
    (state : List Int × Option HandResult) : Prop where
  listed : state.1.Sublist seen
  bound : ∀ other ∈ seen, rated (handsById.lookup other) ≤ rated state.2
  tied : ∀ playerId, playerId ∈ state.1 ↔ playerId ∈ seen ∧
    rated (handsById.lookup playerId) = rated state.2 ∧
    rated (handsById.lookup playerId) ≠ ⊥

theorem BestSoFar.consider {handsById : List (Int × HandResult)} {seen : List Int}
    {state : List Int × Option HandResult} (known : BestSoFar handsById seen state)
    (playerId : Int) :
    BestSoFar handsById (seen ++ [playerId]) (considerWinner handsById state playerId) := by
  obtain ⟨listed, bound, tied⟩ := known
  rcases considerWinner_cases handsById state playerId with
    ⟨beats, next⟩ | ⟨ties, shown, next⟩ | ⟨loses, next⟩
  · rw [next]
    refine ⟨List.sublist_append_right _ _, ?_, ?_⟩
    · intro other member
      rcases List.mem_append.mp member with old | new
      · exact (bound other old).trans (le_of_lt beats)
      · rw [List.mem_singleton.mp new]
    · intro winner
      rw [List.mem_append, List.mem_singleton]
      constructor
      · rintro rfl
        exact ⟨Or.inr rfl, rfl, ne_bot_of_gt beats⟩
      · rintro ⟨old | new, same, _⟩
        · exact absurd (same ▸ bound winner old) (not_le.mpr beats)
        · exact new
  · rw [next]
    refine ⟨listed.append (List.Sublist.refl _), ?_, ?_⟩
    · intro other member
      rcases List.mem_append.mp member with old | new
      · exact bound other old
      · rw [List.mem_singleton.mp new]
        exact le_of_eq ties
    · intro winner
      rw [List.mem_append, List.mem_append, List.mem_singleton, tied winner]
      constructor
      · rintro (⟨old, same, some⟩ | rfl)
        · exact ⟨Or.inl old, same, some⟩
        · exact ⟨Or.inr rfl, ties, shown⟩
      · rintro ⟨old | new, same, some⟩
        · exact Or.inl ⟨old, same, some⟩
        · exact Or.inr new
  · rw [next]
    refine ⟨listed.trans (List.sublist_append_left _ _), ?_, ?_⟩
    · intro other member
      rcases List.mem_append.mp member with old | new
      · exact bound other old
      · rw [List.mem_singleton.mp new]
        rcases loses with below | none
        · exact le_of_lt below
        · rw [none]
          exact bot_le
    · intro winner
      rw [List.mem_append, List.mem_singleton, tied winner]
      constructor
      · rintro ⟨old, same, some⟩
        exact ⟨Or.inl old, same, some⟩
      · rintro ⟨old | rfl, same, some⟩
        · exact ⟨old, same, some⟩
        · rcases loses with below | none
          · exact absurd same (ne_of_lt below)
          · exact absurd none some

theorem bestSoFar_determineWinnerIds (handsById : List (Int × HandResult)) (ids : List Int) :
    BestSoFar handsById ids (determineWinnerIds handsById ids) := by
  have general : ∀ (later seen : List Int) (state : List Int × Option HandResult),
      BestSoFar handsById seen state →
      BestSoFar handsById (seen ++ later) (later.foldl (considerWinner handsById) state) := by
    intro later
    induction later with
    | nil =>
        intro seen state known
        rwa [List.append_nil]
    | cons playerId rest ih =>
        intro seen state known
        rw [List.append_cons]
        exact ih _ _ (known.consider playerId)
  exact general ids [] ([], none) ⟨List.Sublist.refl _, by simp, by simp⟩

/-- The winners of a layer are the eligible players whose hand no eligible hand beats. -/
theorem mem_determineWinnerIds {handsById : List (Int × HandResult)} {ids : List Int}
    {playerId : Int} :
    playerId ∈ (determineWinnerIds handsById ids).1 ↔ playerId ∈ ids ∧
      rated (handsById.lookup playerId) ≠ ⊥ ∧
      ∀ other ∈ ids, rated (handsById.lookup other) ≤ rated (handsById.lookup playerId) := by
  obtain ⟨_, bound, tied⟩ := bestSoFar_determineWinnerIds handsById ids
  rw [tied playerId]
  constructor
  · rintro ⟨inside, same, shown⟩
    exact ⟨inside, shown, fun other member => same ▸ bound other member⟩
  · rintro ⟨inside, shown, greatest⟩
    refine ⟨inside, le_antisymm (bound playerId inside) ?_, shown⟩
    have hand : (handsById.lookup playerId).isSome := by
      rw [← Option.ne_none_iff_isSome]
      intro none
      exact shown (by rw [none, rated_none])
    obtain ⟨winner, won⟩ :=
      List.exists_mem_of_ne_nil _ (determineWinnerIds_ne_nil inside hand)
    obtain ⟨winnerIn, best, _⟩ := (tied winner).mp won
    rw [← best]
    exact greatest winner winnerIn

/-! ### What one player is paid -/

/-- The shares of a layer that go to one player, from a position of the winners on. -/
def sharesOf (amount : Int) (winners : Nat) (playerId : Int) : Nat → List Int → Int
  | _, [] => 0
  | position, winner :: rest =>
      (if winner = playerId then shareAt amount winners position else 0) +
        sharesOf amount winners playerId (position + 1) rest

theorem lookup_payShares (amount : Int) (winners position : Nat) (ids : List Int)
    (state : List (Int × Int) × Int) (playerId : Int) :
    ((payShares amount winners position ids state).1.lookup playerId).getD 0 =
      (state.1.lookup playerId).getD 0 + sharesOf amount winners playerId position ids := by
  induction ids generalizing position state with
  | nil => simp [payShares, sharesOf]
  | cons winner rest ih =>
      obtain ⟨winningsMap, totalAwarded⟩ := state
      rw [payShares, ih, sharesOf, Dict.lookup_set]
      split
      · rename_i same
        rw [same, Option.getD_some]
        dsimp only
        omega
      · dsimp only
        omega

theorem sharesOf_absent (amount : Int) (winners position : Nat) {ids : List Int} {playerId : Int}
    (absent : playerId ∉ ids) : sharesOf amount winners playerId position ids = 0 := by
  induction ids generalizing position with
  | nil => rfl
  | cons winner rest ih =>
      rw [List.mem_cons, not_or] at absent
      rw [sharesOf, if_neg (Ne.symm absent.1), ih _ absent.2, Int.zero_add]

theorem sharesOf_bounds {amount : Int} (positive : 0 ≤ amount) (winners position : Nat)
    (ids : List Int) (playerId : Int) :
    0 ≤ sharesOf amount winners playerId position ids ∧
      sharesOf amount winners playerId position ids ≤
        ((List.range' position ids.length).map (shareAt amount winners)).sum := by
  induction ids generalizing position with
  | nil => simp [sharesOf]
  | cons winner rest ih =>
      obtain ⟨low, high⟩ := ih (position + 1)
      have share := shareAt_nonneg positive winners position
      rw [sharesOf, List.length_cons, List.range'_succ, List.map_cons, List.sum_cons]
      split <;> omega

theorem sharesOf_present {amount : Int} (positive : 0 ≤ amount) (winners position : Nat)
    {ids : List Int} {playerId : Int} (present : playerId ∈ ids) :
    amount / winners ≤ sharesOf amount winners playerId position ids := by
  induction ids generalizing position with
  | nil => cases present
  | cons winner rest ih =>
      obtain ⟨low, _⟩ := sharesOf_bounds positive winners (position + 1) rest playerId
      rw [sharesOf]
      by_cases here : winner = playerId
      · rw [if_pos here]
        unfold shareAt
        split <;> omega
      · have later := (List.mem_cons.mp present).resolve_left (Ne.symm here)
        have := ih (position + 1) later
        rw [if_neg here]
        omega

section Layers

variable (handsById : List (Int × HandResult)) (showdownIds : List Int)

def PotLayer.eligible (layer : PotLayer) : List Int :=
  layer.contributors.filter fun playerId => decide (playerId ∈ showdownIds)

def PotLayer.winners (layer : PotLayer) : List Int :=
  (determineWinnerIds handsById (layer.eligible showdownIds)).1.insertionSort
    fun left right => left ≤ right

def PotLayer.award (playerId : Int) (layer : PotLayer) : Int :=
  sharesOf layer.amount (layer.winners handsById showdownIds).length playerId 0
    (layer.winners handsById showdownIds)

variable {handsById showdownIds}

theorem PotLayer.mem_winners {layer : PotLayer} {playerId : Int} :
    playerId ∈ layer.winners handsById showdownIds ↔ playerId ∈ layer.eligible showdownIds ∧
      rated (handsById.lookup playerId) ≠ ⊥ ∧
      ∀ other ∈ layer.eligible showdownIds,
        rated (handsById.lookup other) ≤ rated (handsById.lookup playerId) := by
  rw [← mem_determineWinnerIds]
  exact (List.perm_insertionSort _ _).mem_iff

theorem lookup_distributeLayer (state : Distribution) (layer : PotLayer) (playerId : Int) :
    ((distributeLayer handsById showdownIds state layer).winningsMap.lookup playerId).getD 0 =
      (state.winningsMap.lookup playerId).getD 0 +
        layer.award handsById showdownIds playerId := by
  unfold distributeLayer
  dsimp only
  split
  · rename_i empty
    have nobody : playerId ∉ layer.winners handsById showdownIds := by
      rw [PotLayer.mem_winners, PotLayer.eligible, List.isEmpty_iff.mp empty]
      simp
    rw [PotLayer.award, sharesOf_absent _ _ _ nobody, Int.add_zero]
  · exact lookup_payShares _ _ _ _ _ _

/-- A player's winnings are what the layers pay him, one after the other. -/
theorem lookup_distributeLayers (layers : List PotLayer) (playerId : Int) :
    ((distributeLayers handsById showdownIds layers).winningsMap.lookup playerId).getD 0 =
      (layers.map (PotLayer.award handsById showdownIds playerId)).sum := by
  have general : ∀ (layers : List PotLayer) (state : Distribution),
      ((layers.foldl (distributeLayer handsById showdownIds) state).winningsMap.lookup
          playerId).getD 0 =
        (state.winningsMap.lookup playerId).getD 0 +
          (layers.map (PotLayer.award handsById showdownIds playerId)).sum := by
    intro layers
    induction layers with
    | nil => simp
    | cons layer rest ih =>
        intro state
        rw [List.foldl_cons, ih, lookup_distributeLayer, List.map_cons, List.sum_cons,
          Int.add_assoc]
  exact (general layers ⟨0, [], 0, []⟩).trans (Int.zero_add _)

theorem PotLayer.award_nonneg {layer : PotLayer} (positive : 0 ≤ layer.amount)
    (playerId : Int) : 0 ≤ layer.award handsById showdownIds playerId :=
  (sharesOf_bounds positive _ _ _ _).1

theorem PotLayer.award_le {layer : PotLayer} (positive : 0 ≤ layer.amount) (playerId : Int) :
    layer.award handsById showdownIds playerId ≤ layer.amount := by
  by_cases member : playerId ∈ layer.winners handsById showdownIds
  · have some := List.length_pos_of_mem member
    have bound := (sharesOf_bounds positive (layer.winners handsById showdownIds).length 0
      (layer.winners handsById showdownIds) playerId).2
    rw [← List.range_eq_range', sum_shares layer.amount some] at bound
    exact bound
  · rw [award, sharesOf_absent _ _ _ member]
    exact positive

theorem PotLayer.award_outside {layer : PotLayer} {playerId : Int}
    (outside : playerId ∉ layer.contributors) :
    layer.award handsById showdownIds playerId = 0 := by
  apply sharesOf_absent
  intro member
  exact outside (List.mem_filter.mp (mem_winners.mp member).1).1

theorem PotLayer.award_beaten {layer : PotLayer} {winner loser : Int}
    (covers : loser ∈ layer.contributors → winner ∈ layer.contributors)
    (shown : winner ∈ showdownIds)
    (beats : rated (handsById.lookup loser) < rated (handsById.lookup winner)) :
    layer.award handsById showdownIds loser = 0 := by
  apply sharesOf_absent
  intro member
  obtain ⟨eligible, _, greatest⟩ := mem_winners.mp member
  have paid := covers (List.mem_filter.mp eligible).1
  have rival := greatest winner (List.mem_filter.mpr ⟨paid, by simpa using shown⟩)
  exact absurd rival (not_le.mpr beats)

theorem PotLayer.award_pos_of_won {layer : PotLayer} {playerId : Int}
    (filled : layer.contributors.length ≤ layer.amount)
    (won : playerId ∈ layer.winners handsById showdownIds) :
    0 < layer.award handsById showdownIds playerId := by
  have few : (layer.winners handsById showdownIds).length ≤ layer.contributors.length := by
    rw [winners, List.length_insertionSort]
    exact ((bestSoFar_determineWinnerIds handsById _).listed.trans List.filter_sublist).length_le
  have some := List.length_pos_of_mem won
  have share : layer.amount / (layer.winners handsById showdownIds).length ≤
      layer.award handsById showdownIds playerId :=
    sharesOf_present (by omega) _ _ won
  have whole : 1 ≤ layer.amount / (layer.winners handsById showdownIds).length := by
    rw [Int.le_ediv_iff_mul_le (by omega)]
    omega
  omega

/-- A contributor at the showdown whom nobody there beats gets at least a chip. -/
theorem PotLayer.award_pos {layer : PotLayer} {playerId : Int}
    (filled : layer.contributors.length ≤ layer.amount)
    (paid : playerId ∈ layer.contributors) (shown : playerId ∈ showdownIds)
    (hand : rated (handsById.lookup playerId) ≠ ⊥)
    (greatest : ∀ other ∈ showdownIds,
      rated (handsById.lookup other) ≤ rated (handsById.lookup playerId)) :
    0 < layer.award handsById showdownIds playerId := by
  apply award_pos_of_won filled
  refine mem_winners.mpr ⟨List.mem_filter.mpr ⟨paid, by simpa using shown⟩, hand, ?_⟩
  intro other member
  exact greatest other (by simpa using (List.mem_filter.mp member).2)

end Layers

/-! ### The layers a player has paid into -/

/-- The layers a player has paid into hold, of every contribution, the part that his own
matches. -/
theorem sum_layers_paid {contribMap : List (Int × Int)} {prev : Int} {levels : List Int}
    (walk : Levels contribMap prev levels) (distinct : (contribMap.map Prod.fst).Nodup)
    {playerId paid : Int} (entry : (playerId, paid) ∈ contribMap) :
    ((potLayersFrom contribMap prev levels).map fun layer =>
        if playerId ∈ layer.contributors then layer.amount else 0).sum =
      (contribMap.map fun other => max 0 (min paid other.2 - prev)).sum := by
  induction levels generalizing prev with
  | nil =>
      symm
      apply List.sum_eq_zero
      intro part member
      obtain ⟨other, inside, rfl⟩ := List.mem_map.mp member
      have low := (walk.covers other inside).resolve_right (by simp)
      omega
  | cons level rest ih =>
      have above := walk.above level (by simp)
      have listed := mem_contributorsAt distinct entry level
      rw [potLayersFrom_cons walk, List.map_cons, List.sum_cons, ih walk.tail, layer_amount]
      by_cases reaches : level ≤ paid
      · rw [if_pos (listed.mpr reaches), ← List.sum_map_add]
        congr 1
        apply List.map_congr_left
        intro other inside
        split
        · omega
        · rename_i short
          have := walk.below inside short
          omega
      · have low := walk.below entry reaches
        dsimp only at low
        rw [if_neg (mt listed.mp reaches), Int.zero_add]
        congr 1
        apply List.map_congr_left
        intro other inside
        omega

theorem potLayersFrom_filled {contribMap : List (Int × Int)} {prev : Int} {levels : List Int}
    (walk : Levels contribMap prev levels) :
    ∀ layer ∈ potLayersFrom contribMap prev levels,
      (layer.contributors.length : Int) ≤ layer.amount := by
  induction levels generalizing prev with
  | nil => simp [potLayersFrom]
  | cons level rest ih =>
      have above := walk.above level (by simp)
      intro layer member
      rw [potLayersFrom_cons walk] at member
      rcases List.mem_cons.mp member with rfl | later
      · have width : 1 ≤ level - prev := by omega
        have scaled := Int.mul_le_mul_of_nonneg_right width
          (Int.natCast_nonneg (contributorsAt contribMap level).length)
        rwa [Int.one_mul] at scaled
      · exact ih walk.tail layer later

/-! ### What the showdown pays each player -/

namespace PokerGame

theorem creditPlayer_eq {players : List Player} (distinct : (players.map Player.id).Nodup)
    (playerId amount : Int) :
    creditPlayer players playerId amount = players.map fun player =>
      { player with chips := player.chips + if playerId = player.id then amount else 0 } := by
  induction players with
  | nil => rfl
  | cons player rest ih =>
      obtain ⟨apart, others⟩ := List.nodup_cons.mp distinct
      by_cases here : player.id = playerId
      · have untouched : rest.map (fun other =>
            { other with chips := other.chips + if playerId = other.id then amount else 0 }) =
            rest := by
          refine (List.map_congr_left ?_).trans (List.map_id rest)
          intro other member
          have different : playerId ≠ other.id := by
            intro same
            exact apart (here ▸ same ▸ List.mem_map_of_mem member)
          simp [different]
        simp [creditPlayer, putPlayer, here, untouched]
      · have later : creditPlayer (player :: rest) playerId amount =
            player :: creditPlayer rest playerId amount := by
          unfold creditPlayer
          rw [List.find?_cons_of_neg (by simpa using here)]
          split
          · rfl
          · rename_i other found
            have same : other.id = playerId := by simpa using List.find?_some found
            rw [putPlayer, if_neg (same ▸ here)]
        rw [later, ih others, List.map_cons, if_neg (Ne.symm here), Int.add_zero]

theorem creditAll_eq {players : List Player} (distinct : (players.map Player.id).Nodup)
    {items : List (Int × Int)} (keys : (items.map Prod.fst).Nodup) :
    creditAll players items = players.map fun player =>
      { player with chips := player.chips + (items.lookup player.id).getD 0 } := by
  induction items generalizing players with
  | nil => simp [creditAll]
  | cons item rest ih =>
      obtain ⟨apart, others⟩ := List.nodup_cons.mp keys
      have ids : (creditPlayer players item.1 item.2).map Player.id = players.map Player.id :=
        creditAll_map (fun _ _ => rfl) players [item]
      rw [creditAll, List.foldl_cons, ← creditAll, ih (ids ▸ distinct) others,
        creditPlayer_eq distinct, List.map_map]
      apply List.map_congr_left
      intro player _
      rw [show item = (item.1, item.2) from rfl, Dict.lookup_cons_eq]
      by_cases here : item.1 = player.id
      · have absent : rest.lookup player.id = none := by
          rw [List.lookup_eq_none_iff]
          intro other member
          have different : player.id ≠ other.1 := by
            intro same
            exact apart (here ▸ same ▸ List.mem_map_of_mem member)
          simpa using different
        simp [here, absent]
      · simp [here]

end PokerGame

def ShowdownResult.winningsOf (result : ShowdownResult) (playerId : Int) : Int :=
  ((result.results.map fun award => (award.playerId, award.winnings)).lookup playerId).getD 0

namespace PokerGame

/-- Every stack grows by the winnings that are reported for it. -/
def PaidOut (game next : PokerGame) (result : ShowdownResult) : Prop :=
  next.players = game.players.map fun player =>
    { player with chips := player.chips + result.winningsOf player.id }

section Showdown

variable {game : PokerGame}

def handsShown (hands : List PlayerHand) : List (Int × HandResult) :=
  Dict.ofPairs (hands.map fun shown => (shown.player.id, shown.hand))

def awardTo (game : PokerGame) (hands : List PlayerHand) (playerId : Int) : Int :=
  ((buildPotLayers game.contributions).map
    (PotLayer.award (handsShown hands) (game.remainingPlayers.map Player.id) playerId)).sum

/-- The results list the winnings, in the order of the ids. -/
theorem contestedShowdown_report {hands : List PlayerHand}
    (distinct : (game.players.map Player.id).Nodup)
    (shown : hands.map PlayerHand.player = game.remainingPlayers) :
    (game.contestedShowdown hands).2.results.map
        (fun award => (award.playerId, award.winnings)) =
      sortedItems (game.settled hands).winningsMap := by
  have found := settled_found
    (distributeLayers_spec (shown_lookup distinct shown) (buildPotLayers game.contributions)).2.2
  change (((sortedItems (game.settled hands).winningsMap).filter fun item =>
    (game.getPlayer item.1).isSome).map _).map
      (fun award : Award => (award.playerId, award.winnings)) = _
  rw [List.filter_eq_self.mpr found, List.map_map]
  exact List.map_id _

theorem contestedShowdown_awards {hands : List PlayerHand}
    (distinct : (game.players.map Player.id).Nodup)
    (shown : hands.map PlayerHand.player = game.remainingPlayers) :
    game.PaidOut (game.contestedShowdown hands).1 (game.contestedShowdown hands).2 ∧
      ∀ playerId, (game.contestedShowdown hands).2.winningsOf playerId =
        game.awardTo hands playerId := by
  have order : (sortedItems (game.settled hands).winningsMap).Perm
      (game.settled hands).winningsMap := List.perm_insertionSort _ _
  have keys : ((game.settled hands).winningsMap.map Prod.fst).Nodup :=
    distributeLayers_keys_nodup _ _ _
  have sortedKeys : ((sortedItems (game.settled hands).winningsMap).map Prod.fst).Nodup :=
    (order.map Prod.fst).nodup_iff.mpr keys
  have report := contestedShowdown_report distinct shown
  have same : ∀ playerId, (sortedItems (game.settled hands).winningsMap).lookup playerId =
      (game.settled hands).winningsMap.lookup playerId := by
    intro playerId
    apply Option.ext
    intro value
    rw [Dict.lookup_eq_some_iff_mem sortedKeys, Dict.lookup_eq_some_iff_mem keys, order.mem_iff]
  constructor
  · unfold PaidOut ShowdownResult.winningsOf
    rw [report]
    exact creditAll_eq distinct sortedKeys
  · intro playerId
    unfold ShowdownResult.winningsOf
    rw [report, same playerId]
    exact lookup_distributeLayers _ _

theorem evaluatePlayers_hand {communityCards : List Card} {players : List Player}
    {hands : List PlayerHand} (evaluated : evaluatePlayers communityCards players = .ok hands) :
    ∀ shown ∈ hands, evaluateHand shown.player.holeCards communityCards = .ok shown.hand := by
  induction players generalizing hands with
  | nil =>
      cases evaluated
      simp
  | cons player rest ih =>
      unfold evaluatePlayers at evaluated
      split at evaluated
      · cases evaluated
      · rename_i hand mine
        split at evaluated
        · cases evaluated
        · rename_i others rival
          cases evaluated
          intro shown member
          rcases List.mem_cons.mp member with rfl | later
          · exact mine
          · exact ih rival shown later

theorem rated_handsShown {hands : List PlayerHand} (distinct : (game.players.map Player.id).Nodup)
    (evaluated : evaluatePlayers game.communityCards game.remainingPlayers = .ok hands)
    {player : Player} (remains : player ∈ game.remainingPlayers) :
    ∃ hand, evaluateHand player.holeCards game.communityCards = .ok hand ∧
      rated ((handsShown hands).lookup player.id) = ↑hand.worth := by
  have players := evaluatePlayers_players evaluated
  have keys : (hands.map fun shown => (shown.player.id, shown.hand)).map Prod.fst =
      game.remainingPlayers.map Player.id := by
    rw [← players, List.map_map, List.map_map]
    rfl
  have nodup : (game.remainingPlayers.map Player.id).Nodup :=
    distinct.sublist (List.Sublist.map Player.id List.filter_sublist)
  rw [← players] at remains
  obtain ⟨shown, member, rfl⟩ := List.mem_map.mp remains
  refine ⟨shown.hand, evaluatePlayers_hand evaluated shown member, ?_⟩
  have found : (handsShown hands).lookup shown.player.id = some shown.hand := by
    unfold handsShown
    rw [Dict.ofPairs_of_nodup (keys ▸ nodup), Dict.lookup_eq_some_iff_mem (keys ▸ nodup)]
    exact List.mem_map_of_mem member
  rw [found, rated_some]

theorem contributions_nodup (distinct : (game.players.map Player.id).Nodup) :
    (game.contributions.map Prod.fst).Nodup := by
  rw [contributions_eq distinct, List.map_map]
  exact distinct.sublist (List.Sublist.map Player.id List.filter_sublist)

theorem mem_contributions (distinct : (game.players.map Player.id).Nodup) {player : Player}
    (member : player ∈ game.players) (paid : 0 < player.totalBetThisHand) :
    (player.id, player.totalBetThisHand) ∈ game.contributions := by
  rw [contributions_eq distinct]
  exact List.mem_map.mpr ⟨player, List.mem_filter.mpr ⟨member, by simpa using paid⟩, rfl⟩

/-- The players who have paid into a layer are those whose total reaches its level. -/
theorem buildPotLayers_contributors (distinct : (game.players.map Player.id).Nodup)
    {layer : PotLayer} (member : layer ∈ buildPotLayers game.contributions) :
    ∃ level, 0 < level ∧ ∀ player ∈ game.players,
      (player.id ∈ layer.contributors ↔ level ≤ player.totalBetThisHand) := by
  have walk := levels_uniqueLevels game.contributions_pos
  obtain ⟨_, level, listed, same⟩ := (mem_potLayersFrom walk).1 layer member
  have positive := walk.above level listed
  refine ⟨level, positive, ?_⟩
  intro player inside
  rw [same]
  by_cases paid : 0 < player.totalBetThisHand
  · exact mem_contributorsAt (contributions_nodup distinct)
      (mem_contributions distinct inside paid) level
  · constructor
    · intro contributed
      obtain ⟨entry, entryIn, id⟩ := List.mem_map.mp contributed
      have entryIn := (List.mem_filter.mp entryIn).1
      rw [contributions_eq distinct] at entryIn
      obtain ⟨payer, payerIn, rfl⟩ := List.mem_map.mp entryIn
      obtain ⟨payerIn, payerPaid⟩ := List.mem_filter.mp payerIn
      have equal : payer = player := List.inj_on_of_nodup_map distinct payerIn inside id
      rw [equal] at payerPaid
      exact absurd (by simpa using payerPaid) paid
    · intro reaches
      omega

theorem sum_layers_unpaid (distinct : (game.players.map Player.id).Nodup) {player : Player}
    (member : player ∈ game.players) (unpaid : ¬ 0 < player.totalBetThisHand) :
    ((buildPotLayers game.contributions).map fun layer =>
      if player.id ∈ layer.contributors then layer.amount else 0).sum = 0 := by
  apply List.sum_eq_zero
  intro part listed
  obtain ⟨layer, inside, rfl⟩ := List.mem_map.mp listed
  obtain ⟨level, positive, contributed⟩ := buildPotLayers_contributors distinct inside
  rw [if_neg]
  rw [contributed player member]
  omega

/-- The layers of a player hold at most the part of every contribution that his own
matches. -/
theorem sum_layers_le (distinct : (game.players.map Player.id).Nodup)
    (nonneg : ∀ player ∈ game.players, 0 ≤ player.totalBetThisHand) {player : Player}
    (member : player ∈ game.players) :
    ((buildPotLayers game.contributions).map fun layer =>
        if player.id ∈ layer.contributors then layer.amount else 0).sum ≤
      (game.players.map fun other =>
        min player.totalBetThisHand other.totalBetThisHand).sum := by
  have parts : ∀ part ∈ game.players.map fun other =>
      min player.totalBetThisHand other.totalBetThisHand, 0 ≤ part := by
    intro part listed
    obtain ⟨other, inside, rfl⟩ := List.mem_map.mp listed
    have := nonneg other inside
    have := nonneg player member
    omega
  by_cases paid : 0 < player.totalBetThisHand
  · have matched := sum_layers_paid (levels_uniqueLevels game.contributions_pos)
      (contributions_nodup distinct) (mem_contributions distinct member paid)
    refine (Int.le_of_eq matched).trans ?_
    rw [contributions_eq distinct, List.map_map]
    have payers : ((game.players.filter fun other => decide (0 < other.totalBetThisHand)).map
        fun other => min player.totalBetThisHand other.totalBetThisHand).sum ≤
        (game.players.map fun other =>
          min player.totalBetThisHand other.totalBetThisHand).sum :=
      List.Sublist.sum_le_sum (List.Sublist.map _ List.filter_sublist) parts
    refine le_trans (Int.le_of_eq ?_) payers
    congr 1
    apply List.map_congr_left
    intro other inside
    have := nonneg other (List.mem_filter.mp inside).1
    simp only [Function.comp_apply]
    omega
  · rw [sum_layers_unpaid distinct member paid]
    exact List.sum_nonneg parts

/-- What one player is awarded is at most the part of every contribution that his own
matches. -/
theorem awardTo_le (distinct : (game.players.map Player.id).Nodup)
    (nonneg : ∀ player ∈ game.players, 0 ≤ player.totalBetThisHand) (hands : List PlayerHand)
    {player : Player} (member : player ∈ game.players) :
    game.awardTo hands player.id ≤ (game.players.map fun other =>
      min player.totalBetThisHand other.totalBetThisHand).sum := by
  have amounts : ∀ layer ∈ buildPotLayers game.contributions, 0 < layer.amount :=
    fun layer inside =>
      ((mem_potLayersFrom (levels_uniqueLevels game.contributions_pos)).1 layer inside).1
  apply le_trans _ (sum_layers_le distinct nonneg member)
  apply List.sum_le_sum
  intro layer inside
  split
  · exact PotLayer.award_le (Int.le_of_lt (amounts layer inside)) player.id
  · rename_i outside
    exact Int.le_of_eq (PotLayer.award_outside outside)

/-- The awards of all players together are at most what was put in. -/
theorem sum_awardTo_le (distinct : (game.players.map Player.id).Nodup)
    (nonneg : ∀ player ∈ game.players, 0 ≤ player.totalBetThisHand) {hands : List PlayerHand}
    (shown : hands.map PlayerHand.player = game.remainingPlayers) :
    (game.players.map fun player => game.awardTo hands player.id).sum ≤
      (game.players.map Player.totalBetThisHand).sum := by
  have walk := levels_uniqueLevels game.contributions_pos
  have amounts : ∀ layer ∈ buildPotLayers game.contributions, 0 < layer.amount :=
    fun layer inside => ((mem_potLayersFrom walk).1 layer inside).1
  obtain ⟨_, won, winners⟩ :=
    distributeLayers_spec (shown_lookup distinct shown) (buildPotLayers game.contributions)
  have seated : ∀ key ∈ (game.settled hands).winningsMap.map Prod.fst,
      key ∈ game.players.map Player.id := by
    intro key member
    obtain ⟨player, inside, same⟩ := List.mem_map.mp (winners key member)
    exact List.mem_map.mpr ⟨player, (List.mem_filter.mp inside).1, same⟩
  have total := Dict.sum_lookup (distributeLayers_keys_nodup (handsShown hands)
    (game.remainingPlayers.map Player.id) (buildPotLayers game.contributions)) distinct seated
  have awards : (game.players.map fun player => game.awardTo hands player.id).sum =
      ((game.players.map Player.id).map fun key =>
        ((game.settled hands).winningsMap.lookup key).getD 0).sum := by
    rw [List.map_map]
    congr 1
    apply List.map_congr_left
    intro player _
    exact (lookup_distributeLayers _ _).symm
  have claimed := sum_filtered_le
    (fun layer : PotLayer => layer.claimed (game.remainingPlayers.map Player.id)) amounts
  rw [awards, ← sum_buildPotLayers distinct nonneg]
  exact le_trans (Int.le_of_eq (total.trans won)) claimed.1

/-- Whoever is not at the showdown is awarded nothing. -/
theorem awardTo_folded (hands : List PlayerHand) {playerId : Int}
    (gone : playerId ∉ game.remainingPlayers.map Player.id) : game.awardTo hands playerId = 0 := by
  apply List.sum_eq_zero
  intro part listed
  obtain ⟨layer, _, rfl⟩ := List.mem_map.mp listed
  apply sharesOf_absent
  intro won
  have eligible := (PotLayer.mem_winners.mp won).1
  exact gone (by simpa using (List.mem_filter.mp eligible).2)

/-- A player whose hand is beaten by someone who put in as much is awarded nothing. -/
theorem awardTo_beaten (distinct : (game.players.map Player.id).Nodup) {hands : List PlayerHand}
    {player rival : Player} (remains : player ∈ game.remainingPlayers)
    (member : rival ∈ game.players)
    (covers : rival.totalBetThisHand ≤ player.totalBetThisHand)
    (beats : rated ((handsShown hands).lookup rival.id) <
      rated ((handsShown hands).lookup player.id)) : game.awardTo hands rival.id = 0 := by
  apply List.sum_eq_zero
  intro part listed
  obtain ⟨layer, inside, rfl⟩ := List.mem_map.mp listed
  obtain ⟨level, _, contributed⟩ := buildPotLayers_contributors distinct inside
  refine PotLayer.award_beaten ?_ (List.mem_map_of_mem remains) beats
  rw [contributed rival member, contributed player (List.mem_filter.mp remains).1]
  omega

/-- A player who put in a chip and whom nobody at the showdown beats is awarded some. -/
theorem awardTo_pos (distinct : (game.players.map Player.id).Nodup) {hands : List PlayerHand}
    {player : Player} (remains : player ∈ game.remainingPlayers)
    (put : 1 ≤ player.totalBetThisHand)
    (hand : rated ((handsShown hands).lookup player.id) ≠ ⊥)
    (greatest : ∀ rival ∈ game.remainingPlayers, rated ((handsShown hands).lookup rival.id) ≤
      rated ((handsShown hands).lookup player.id)) : 0 < game.awardTo hands player.id := by
  have walk := levels_uniqueLevels game.contributions_pos
  obtain ⟨amounts, reached⟩ := mem_potLayersFrom walk
  have entry := mem_contributions distinct (List.mem_filter.mp remains).1
    (show 0 < player.totalBetThisHand by omega)
  have atLevel : player.totalBetThisHand ∈ uniqueLevels game.contributions :=
    (walk.covers _ entry).resolve_left (by omega)
  obtain ⟨layer, inside, contributors⟩ := reached _ atLevel
  have paid : player.id ∈ layer.contributors := by
    rw [contributors, mem_contributorsAt (contributions_nodup distinct) entry]
  have won : 0 < layer.award (handsShown hands) (game.remainingPlayers.map Player.id)
      player.id := by
    refine PotLayer.award_pos (potLayersFrom_filled walk layer inside) paid
      (List.mem_map_of_mem remains) hand ?_
    intro other listed
    obtain ⟨rival, rivalIn, rfl⟩ := List.mem_map.mp listed
    exact greatest rival rivalIn
  refine lt_of_lt_of_le won (List.single_le_sum ?_ _ (List.mem_map_of_mem inside))
  intro part listed
  obtain ⟨other, otherIn, rfl⟩ := List.mem_map.mp listed
  exact PotLayer.award_nonneg (Int.le_of_lt (amounts other otherIn).1) player.id

end Showdown

/-- The side-pot cap. A showdown of two or more players who hold cards returns; whenever it
returns, each player is paid at most the part of every contribution that his own matches,
a player who is out is paid nothing, and all players together at most what was put in. -/
theorem winnings_within_side_pots (game : PokerGame)
    (distinct : (game.players.map Player.id).Nodup)
    (several : 2 ≤ game.remainingPlayers.length)
    (nonneg : ∀ player ∈ game.players, 0 ≤ player.totalBetThisHand) :
    ((∀ player ∈ game.remainingPlayers, player.holeCards ≠ []) →
      ∃ next result, game.conductShowdown = .ok (next, result)) ∧
    ∀ next result, game.conductShowdown = .ok (next, result) →
      game.PaidOut next result ∧
      (∀ player ∈ game.players,
        result.winningsOf player.id ≤ (game.players.map fun other =>
          min player.totalBetThisHand other.totalBetThisHand).sum ∧
        (player.status = .folded ∨ player.status = .busted →
          result.winningsOf player.id = 0)) ∧
      (game.players.map fun player => result.winningsOf player.id).sum ≤
        (game.players.map Player.totalBetThisHand).sum := by
  constructor
  · intro held
    obtain ⟨⟨next, result⟩, returned⟩ := conductShowdown_returns held
    exact ⟨next, result, returned⟩
  · intro next result returned
    obtain ⟨hands, evaluated, paid⟩ := conductShowdown_evaluated returned several
    have shown := evaluatePlayers_players evaluated
    obtain ⟨out, awards⟩ := contestedShowdown_awards distinct shown
    rw [← paid] at out awards
    simp only [awards]
    refine ⟨out, ?_, sum_awardTo_le distinct nonneg shown⟩
    intro player member
    refine ⟨awardTo_le distinct nonneg hands member, ?_⟩
    intro gone
    apply awardTo_folded
    intro listed
    obtain ⟨other, inside, same⟩ := List.mem_map.mp listed
    obtain ⟨otherIn, remains⟩ := List.mem_filter.mp inside
    have equal : other = player := List.inj_on_of_nodup_map distinct otherIn member same
    rw [equal] at remains
    rcases gone with folded | busted
    · simp [folded, PlayerStatus.remains] at remains
    · simp [busted, PlayerStatus.remains] at remains

/-- A short all-in with aces, two full bets with kings and queens, and a fold. -/
def sidePotTable : PokerGame :=
  { smallBlind := 10
    bigBlind := 20
    pot := 250
    currentPhase := .showdown
    communityCards := dryBoard
    players :=
      [{ id := 3, chips := 0, totalBetThisHand := 30, status := .allIn,
         holeCards := pairOfAces },
        { id := 1, chips := 40, totalBetThisHand := 100, holeCards := pairOfKings },
        { id := 2, chips := 10, totalBetThisHand := 100, holeCards := pairOfQueens },
        { id := 5, chips := 60, totalBetThisHand := 20, status := .folded }] }

theorem winnings_within_side_pots_three :
    ∃ next result, sidePotTable.conductShowdown = .ok (next, result) ∧
      result.winningsOf 3 ≤ 110 ∧ result.winningsOf 5 = 0 := by
  obtain ⟨returns, capped⟩ :=
    winnings_within_side_pots sidePotTable (by decide) (by decide) (by decide)
  obtain ⟨next, result, returned⟩ := returns (by decide)
  obtain ⟨_, each, _⟩ := capped next result returned
  refine ⟨next, result, returned, ?_, ?_⟩
  · exact (each sidePotTable.players[0] (by decide)).1
  · exact (each sidePotTable.players[3] (by decide)).2 (Or.inl rfl)

/-- A hand that no hand at the showdown beats is paid if its holder put in a chip, and a
beaten one is not paid when the winner put in as much. -/
theorem awards_follow_hands (game : PokerGame) (distinct : (game.players.map Player.id).Nodup)
    (several : 2 ≤ game.remainingPlayers.length) (player : Player)
    (remains : player ∈ game.remainingPlayers) :
    ((∀ other ∈ game.remainingPlayers, other.holeCards ≠ []) →
      ∃ next result, game.conductShowdown = .ok (next, result)) ∧
    ∀ next result, game.conductShowdown = .ok (next, result) →
      game.PaidOut next result ∧
      ∃ hand, evaluateHand player.holeCards game.communityCards = .ok hand ∧
        (∀ rival ∈ game.remainingPlayers, ∀ theirs,
          evaluateHand rival.holeCards game.communityCards = .ok theirs →
          handBeats hand theirs = true → rival.totalBetThisHand ≤ player.totalBetThisHand →
          result.winningsOf rival.id = 0) ∧
        ((∀ rival ∈ game.remainingPlayers, ∀ theirs,
          evaluateHand rival.holeCards game.communityCards = .ok theirs →
          handBeats theirs hand = false) → 1 ≤ player.totalBetThisHand →
          0 < result.winningsOf player.id) := by
  constructor
  · intro held
    obtain ⟨⟨next, result⟩, returned⟩ := conductShowdown_returns held
    exact ⟨next, result, returned⟩
  · intro next result returned
    obtain ⟨hands, evaluated, paid⟩ := conductShowdown_evaluated returned several
    obtain ⟨out, awards⟩ :=
      contestedShowdown_awards distinct (evaluatePlayers_players evaluated)
    rw [← paid] at out awards
    obtain ⟨hand, mine, myWorth⟩ := rated_handsShown distinct evaluated remains
    refine ⟨out, hand, mine, ?_, ?_⟩
    · intro rival rivalIn theirs shown beats covers
      obtain ⟨other, sameHand, rivalWorth⟩ := rated_handsShown distinct evaluated rivalIn
      rw [shown] at sameHand
      cases sameHand
      rw [awards]
      apply awardTo_beaten distinct remains (List.mem_filter.mp rivalIn).1 covers
      rw [rivalWorth, myWorth, WithBot.coe_lt_coe]
      exact (handBeats_iff hand theirs).mp beats
    · intro unbeaten put
      rw [awards]
      apply awardTo_pos distinct remains put
      · rw [myWorth]
        exact WithBot.coe_ne_bot
      · intro rival rivalIn
        obtain ⟨theirs, shown, rivalWorth⟩ := rated_handsShown distinct evaluated rivalIn
        rw [rivalWorth, myWorth, WithBot.coe_le_coe, ← not_lt, ← handBeats_iff]
        exact Bool.eq_false_iff.mp (unbeaten rival rivalIn theirs shown)

theorem awards_follow_hands_three :
    ∃ next result, sidePotTable.conductShowdown = .ok (next, result) ∧
      result.winningsOf 2 = 0 := by
  have evaluated : ∃ kings queens,
      evaluateHand (pairOf 13 (by decide) (by decide)) dryBoard = .ok kings ∧
      evaluateHand (pairOf 12 (by decide) (by decide)) dryBoard = .ok queens ∧
      handBeats kings queens = true := ⟨_, _, rfl, rfl, by decide⟩
  obtain ⟨kings, queens, mine, theirs, beats⟩ := evaluated
  obtain ⟨returns, follow⟩ := awards_follow_hands sidePotTable (by decide) (by decide)
    sidePotTable.players[1] (by decide)
  obtain ⟨next, result, returned⟩ := returns (by decide)
  obtain ⟨_, hand, same, unpaid, _⟩ := follow next result returned
  have equal : hand = kings := Except.ok.inj (same.symm.trans mine)
  exact ⟨next, result, returned, unpaid sidePotTable.players[2] (by decide) queens theirs
    (equal ▸ beats) (by decide)⟩

end PokerGame

end Holdem
