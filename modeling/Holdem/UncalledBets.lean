import Holdem.FairSplit

set_option autoImplicit false

/- The part of a bet that nobody has matched comes back to the player through the same loop that
pays the winners. Who is paid more than this? -/
namespace Holdem

/-! ### Who is listed -/

section Listed

variable {handsById : List (Int × HandResult)} {showdownIds : List Int}

theorem mem_keys_distributeLayers {layers : List PotLayer} {key : Int}
    (member : key ∈ (distributeLayers handsById showdownIds layers).winningsMap.map Prod.fst) :
    ∃ layer ∈ layers, key ∈ layer.winners handsById showdownIds := by
  have general : ∀ (layers : List PotLayer) (state : Distribution),
      key ∈ (layers.foldl (distributeLayer handsById showdownIds) state).winningsMap.map
        Prod.fst →
      key ∈ state.winningsMap.map Prod.fst ∨
        ∃ layer ∈ layers, key ∈ layer.winners handsById showdownIds := by
    intro layers
    induction layers with
    | nil => exact fun state inside => Or.inl inside
    | cons layer rest ih =>
        intro state inside
        rcases ih _ inside with here | ⟨other, later, won⟩
        · unfold distributeLayer at here
          dsimp only at here
          split at here
          · exact Or.inl here
          · rcases (payShares_spec _ _ _ _ _).2.2 key here with won | old
            · exact Or.inr ⟨layer, by simp, won⟩
            · exact Or.inl old
        · exact Or.inr ⟨other, List.mem_cons_of_mem _ later, won⟩
  rcases general layers ⟨0, [], 0, []⟩ member with impossible | won
  · cases impossible
  · exact won

end Listed

namespace PokerGame

variable {game : PokerGame}

theorem layer_filled {layer : PotLayer} (member : layer ∈ buildPotLayers game.contributions) :
    (layer.contributors.length : Int) ≤ layer.amount :=
  potLayersFrom_filled (levels_uniqueLevels game.contributions_pos) layer member

theorem award_nonneg_of_layer {hands : List PlayerHand} (playerId : Int) {layer : PotLayer}
    (member : layer ∈ buildPotLayers game.contributions) :
    0 ≤ layer.award (handsShown hands) (game.remainingPlayers.map Player.id) playerId :=
  PotLayer.award_nonneg (le_trans (by omega) (layer_filled member)) playerId

/-- The players listed at a showdown are those who are awarded something. -/
theorem mem_results {hands : List PlayerHand} (distinct : (game.players.map Player.id).Nodup)
    (shown : hands.map PlayerHand.player = game.remainingPlayers) (playerId amount : Int) :
    (∃ award ∈ (game.contestedShowdown hands).2.results,
        award.playerId = playerId ∧ award.winnings = amount) ↔
      amount = game.awardTo hands playerId ∧ 0 < game.awardTo hands playerId := by
  have order : (sortedItems (game.settled hands).winningsMap).Perm
      (game.settled hands).winningsMap := List.perm_insertionSort _ _
  have listed : (∃ award ∈ (game.contestedShowdown hands).2.results,
      award.playerId = playerId ∧ award.winnings = amount) ↔
      (playerId, amount) ∈ (game.settled hands).winningsMap := by
    rw [← order.mem_iff, ← contestedShowdown_report distinct shown, List.mem_map]
    simp only [Prod.mk.injEq]
  have keys : ((game.settled hands).winningsMap.map Prod.fst).Nodup :=
    distributeLayers_keys_nodup _ _ _
  have total : ((game.settled hands).winningsMap.lookup playerId).getD 0 =
      game.awardTo hands playerId := lookup_distributeLayers _ _
  rw [listed, ← Dict.lookup_eq_some_iff_mem keys]
  constructor
  · intro found
    rw [found, Option.getD_some] at total
    refine ⟨total, ?_⟩
    have key : playerId ∈ (game.settled hands).winningsMap.map Prod.fst :=
      List.mem_map_of_mem ((Dict.lookup_eq_some_iff_mem keys).mp found)
    obtain ⟨layer, member, won⟩ := mem_keys_distributeLayers key
    refine lt_of_lt_of_le (PotLayer.award_pos_of_won (layer_filled member) won)
      (List.single_le_sum ?_ _ (List.mem_map_of_mem member))
    intro part inside
    obtain ⟨other, otherIn, rfl⟩ := List.mem_map.mp inside
    exact award_nonneg_of_layer playerId otherIn
  · rintro ⟨rfl, positive⟩
    cases found : (game.settled hands).winningsMap.lookup playerId with
    | none =>
        rw [found, Option.getD_none] at total
        omega
    | some amount =>
        rw [found, Option.getD_some] at total
        rw [total]

/-! ### Uncalled bets -/

/-- The most that another player has put in during this hand. -/
def calledUpTo (game : PokerGame) (player : Player) : Int :=
  ((game.players.filter fun other => other.id != player.id).map
    Player.totalBetThisHand).foldr max 0

/-- What a player has put in beyond every other player. -/
def uncalledBet (game : PokerGame) (player : Player) : Int :=
  max 0 (player.totalBetThisHand - game.calledUpTo player)

theorem calledUpTo_nonneg (game : PokerGame) (player : Player) : 0 ≤ game.calledUpTo player :=
  (Combinations.largest_spec 0 _).1

theorem le_calledUpTo (player : Player) {other : Player} (member : other ∈ game.players)
    (apart : other.id ≠ player.id) : other.totalBetThisHand ≤ game.calledUpTo player := by
  refine List.le_max_of_le' 0 (List.mem_map_of_mem ?_) (le_refl _)
  exact List.mem_filter.mpr ⟨member, by simpa using apart⟩

theorem calledUpTo_attained {player : Player} (called : 0 < game.calledUpTo player) :
    ∃ rival ∈ game.players, rival.id ≠ player.id ∧
      rival.totalBetThisHand = game.calledUpTo player := by
  rcases (Combinations.largest_spec 0 ((game.players.filter fun other =>
    other.id != player.id).map Player.totalBetThisHand)).2 with zero | inside
  · exact absurd zero (ne_of_gt called)
  · obtain ⟨rival, member, same⟩ := List.mem_map.mp inside
    obtain ⟨rivalIn, apart⟩ := List.mem_filter.mp member
    exact ⟨rival, rivalIn, by simpa using apart, same⟩

def sharedWith (playerId : Int) (layer : PotLayer) : Bool :=
  layer.contributors.any fun other => other != playerId

theorem shared_awards_nonneg (hands : List PlayerHand) (playerId : Int) :
    ∀ part ∈ (buildPotLayers game.contributions).map (fun layer =>
      if sharedWith playerId layer then
        layer.award (handsShown hands) (game.remainingPlayers.map Player.id) playerId
      else 0), 0 ≤ part := by
  intro part inside
  obtain ⟨layer, layerIn, rfl⟩ := List.mem_map.mp inside
  split
  · exact award_nonneg_of_layer playerId layerIn
  · exact le_refl _

section Uncalled

variable {hands : List PlayerHand} {player : Player}

/-- The layers somebody else has paid into are those up to what others have put in. -/
theorem sharedWith_iff (distinct : (game.players.map Player.id).Nodup) (player : Player)
    {layer : PotLayer}
    (member : layer ∈ buildPotLayers game.contributions) :
    ∃ level, 0 < level ∧ (∀ other ∈ game.players,
        (other.id ∈ layer.contributors ↔ level ≤ other.totalBetThisHand)) ∧
      (sharedWith player.id layer = true ↔ level ≤ game.calledUpTo player) := by
  obtain ⟨level, positive, contributed⟩ := buildPotLayers_contributors distinct member
  refine ⟨level, positive, contributed, ?_⟩
  constructor
  · intro shared
    obtain ⟨otherId, paid, apart⟩ := List.any_eq_true.mp shared
    obtain ⟨_, mark, _, same⟩ :=
      (mem_potLayersFrom (levels_uniqueLevels game.contributions_pos)).1 layer member
    rw [same] at paid
    obtain ⟨entry, inside, rfl⟩ := List.mem_map.mp paid
    have listed := (List.mem_filter.mp inside).1
    rw [contributions_eq distinct] at listed
    obtain ⟨other, otherIn, rfl⟩ := List.mem_map.mp listed
    have seated := (List.mem_filter.mp otherIn).1
    rw [← same] at paid
    have reaches := (contributed other seated).mp paid
    have most := le_calledUpTo player seated (by simpa using apart)
    omega
  · intro low
    obtain ⟨rival, rivalIn, apart, same⟩ := calledUpTo_attained (lt_of_lt_of_le positive low)
    apply List.any_eq_true.mpr
    exact ⟨rival.id, (contributed rival rivalIn).mpr (by omega), by simpa using apart⟩

/-- The layers shared with others hold what everybody has put in up to the most that another
player has. -/
theorem sum_shared_layers (distinct : (game.players.map Player.id).Nodup) (player : Player) :
    ((buildPotLayers game.contributions).map fun layer =>
        if sharedWith player.id layer then layer.amount else 0).sum =
      (game.contributions.map fun entry => max 0 (min (game.calledUpTo player) entry.2)).sum := by
  by_cases called : 0 < game.calledUpTo player
  · obtain ⟨rival, rivalIn, _, same⟩ := calledUpTo_attained called
    have matched := sum_layers_paid (levels_uniqueLevels game.contributions_pos)
      (contributions_nodup distinct) (mem_contributions distinct rivalIn (by omega))
    rw [same] at matched
    simp only [Int.sub_zero] at matched
    rw [← matched]
    congr 1
    apply List.map_congr_left
    intro layer member
    obtain ⟨level, _, contributed, shared⟩ := sharedWith_iff distinct player member
    have paid : rival.id ∈ layer.contributors ↔ sharedWith player.id layer = true := by
      rw [contributed rival rivalIn, shared, same]
    simp only [paid]
  · have zero := calledUpTo_nonneg game player
    rw [List.sum_eq_zero, List.sum_eq_zero]
    · intro part inside
      obtain ⟨entry, _, rfl⟩ := List.mem_map.mp inside
      omega
    · intro part inside
      obtain ⟨layer, member, rfl⟩ := List.mem_map.mp inside
      obtain ⟨level, positive, _, shared⟩ := sharedWith_iff distinct player member
      rw [if_neg]
      rw [shared]
      omega

/-- The other layers hold the player's uncalled bet. -/
theorem sum_own_layers (distinct : (game.players.map Player.id).Nodup)
    (member : player ∈ game.players) (uncalled : 0 < game.uncalledBet player) :
    ((buildPotLayers game.contributions).map fun layer =>
        if sharedWith player.id layer then 0 else layer.amount).sum = game.uncalledBet player := by
  have most := calledUpTo_nonneg game player
  have high : game.calledUpTo player < player.totalBetThisHand := by
    unfold uncalledBet at uncalled
    omega
  have total := sum_potLayersFrom (levels_uniqueLevels game.contributions_pos)
  have split : ((buildPotLayers game.contributions).map PotLayer.amount).sum =
      ((buildPotLayers game.contributions).map fun layer =>
        if sharedWith player.id layer then layer.amount else 0).sum +
      ((buildPotLayers game.contributions).map fun layer =>
        if sharedWith player.id layer then 0 else layer.amount).sum := by
    rw [← List.sum_map_add]
    congr 1
    apply List.map_congr_left
    intro layer _
    split <;> omega
  rw [← buildPotLayers, split, sum_shared_layers distinct player] at total
  have rest : (game.contributions.map fun entry => max 0 (entry.2 - 0)).sum =
      (game.contributions.map fun entry => max 0 (min (game.calledUpTo player) entry.2)).sum +
      (game.contributions.map fun entry =>
        if player.id = entry.1 then game.uncalledBet player else 0).sum := by
    rw [← List.sum_map_add]
    congr 1
    apply List.map_congr_left
    intro entry inside
    rw [contributions_eq distinct] at inside
    obtain ⟨other, listed, rfl⟩ := List.mem_map.mp inside
    obtain ⟨otherIn, paid⟩ := List.mem_filter.mp listed
    have positive : 0 < other.totalBetThisHand := by simpa using paid
    dsimp only
    by_cases same : player.id = other.id
    · have equal : other = player := List.inj_on_of_nodup_map distinct otherIn member same.symm
      rw [if_pos same, equal]
      unfold uncalledBet
      omega
    · have below := le_calledUpTo player otherIn (Ne.symm same)
      rw [if_neg same]
      omega
  have own : (game.contributions.map fun entry =>
      if player.id = entry.1 then game.uncalledBet player else 0).sum =
      game.uncalledBet player := by
    have keyed := Dict.sum_at_key (contributions_nodup distinct)
      (List.mem_map_of_mem (f := Prod.fst) (mem_contributions distinct member (by omega)))
      (game.uncalledBet player)
    rwa [List.map_map] at keyed
  omega

theorem award_own_layer (distinct : (game.players.map Player.id).Nodup)
    (remains : player ∈ game.remainingPlayers)
    (hand : rated ((handsShown hands).lookup player.id) ≠ ⊥) {layer : PotLayer}
    (member : layer ∈ buildPotLayers game.contributions)
    (own : sharedWith player.id layer = false) :
    layer.award (handsShown hands) (game.remainingPlayers.map Player.id) player.id =
      layer.amount := by
  have alone : ∀ other ∈ layer.contributors, other = player.id := by
    intro other paid
    have same := List.any_eq_false.mp own other paid
    simpa using same
  have someone : layer.contributors ≠ [] := by
    obtain ⟨_, level, listed, same⟩ :=
      (mem_potLayersFrom (levels_uniqueLevels game.contributions_pos)).1 layer member
    obtain ⟨entry, inside, reaches⟩ :=
      (levels_uniqueLevels game.contributions_pos).paid level listed
    rw [same]
    exact List.ne_nil_of_mem (List.mem_map_of_mem (List.mem_filter.mpr ⟨inside, by simp [reaches]⟩))
  obtain ⟨other, paid⟩ := List.exists_mem_of_ne_nil _ someone
  rw [alone other paid] at paid
  have won : player.id ∈ layer.winners (handsShown hands)
      (game.remainingPlayers.map Player.id) := by
    refine PotLayer.mem_winners.mpr ⟨List.mem_filter.mpr ⟨paid, ?_⟩, hand, ?_⟩
    · simpa using List.mem_map_of_mem (f := Player.id) remains
    · intro rival eligible
      rw [alone rival (List.mem_filter.mp eligible).1]
  have single : layer.winners (handsShown hands) (game.remainingPlayers.map Player.id) =
      [player.id] := by
    have apart := (PotLayer.winners_increasing (handsShown hands)
      (game.remainingPlayers.map Player.id) (layer_nodup distinct member)).imp
        fun below => ne_of_lt below
    apply List.perm_singleton.mp
    apply (List.perm_ext_iff_of_nodup apart (List.nodup_singleton _)).mpr
    intro rival
    rw [List.mem_singleton]
    constructor
    · intro inside
      exact alone rival (List.mem_filter.mp (PotLayer.mem_winners.mp inside).1).1
    · rintro rfl
      exact won
  unfold PotLayer.award
  rw [single]
  simp [sharesOf, shareAt]

/-- A player's award beyond an uncalled bet comes from the layers shared with others. -/
theorem awardTo_uncalled (distinct : (game.players.map Player.id).Nodup)
    (remains : player ∈ game.remainingPlayers)
    (hand : rated ((handsShown hands).lookup player.id) ≠ ⊥)
    (uncalled : 0 < game.uncalledBet player) :
    game.awardTo hands player.id = game.uncalledBet player +
      ((buildPotLayers game.contributions).map fun layer =>
        if sharedWith player.id layer then
          layer.award (handsShown hands) (game.remainingPlayers.map Player.id) player.id
        else 0).sum := by
  rw [← sum_own_layers distinct (List.mem_filter.mp remains).1 uncalled, ← List.sum_map_add]
  unfold awardTo
  congr 1
  apply List.map_congr_left
  intro layer member
  cases shared : sharedWith player.id layer
  · rw [award_own_layer distinct remains hand member shared]
    simp
  · simp

/-- He is awarded more exactly when somebody has called a part of his bet, and nobody who called
as much as anyone beats him. -/
theorem uncalledBet_lt_awardTo_iff (distinct : (game.players.map Player.id).Nodup)
    (remains : player ∈ game.remainingPlayers)
    (hand : rated ((handsShown hands).lookup player.id) ≠ ⊥)
    (uncalled : 0 < game.uncalledBet player) :
    game.uncalledBet player < game.awardTo hands player.id ↔
      0 < game.calledUpTo player ∧ ∀ caller ∈ game.remainingPlayers, caller.id ≠ player.id →
        game.calledUpTo player ≤ caller.totalBetThisHand →
        rated ((handsShown hands).lookup caller.id) ≤
          rated ((handsShown hands).lookup player.id) := by
  have member := (List.mem_filter.mp remains).1
  have high : game.calledUpTo player < player.totalBetThisHand := by
    have := calledUpTo_nonneg game player
    unfold uncalledBet at uncalled
    omega
  have parts := @shared_awards_nonneg game hands player.id
  rw [awardTo_uncalled distinct remains hand uncalled]
  constructor
  · intro more
    have positive : ∃ layer ∈ buildPotLayers game.contributions,
        sharedWith player.id layer = true ∧ player.id ∈ layer.winners (handsShown hands)
          (game.remainingPlayers.map Player.id) := by
      by_contra none
      have zero := List.sum_eq_zero (l := (buildPotLayers game.contributions).map fun layer =>
        if sharedWith player.id layer then
          layer.award (handsShown hands) (game.remainingPlayers.map Player.id) player.id
        else 0) (by
        intro part inside
        obtain ⟨layer, layerIn, rfl⟩ := List.mem_map.mp inside
        split
        · rename_i shared
          exact sharesOf_absent _ _ _ fun won => none ⟨layer, layerIn, shared, won⟩
        · rfl)
      omega
    obtain ⟨layer, layerIn, shared, won⟩ := positive
    obtain ⟨level, low, contributed, upTo⟩ := sharedWith_iff distinct player layerIn
    have reaches := upTo.mp shared
    refine ⟨by omega, ?_⟩
    intro caller callerIn _ called
    apply (PotLayer.mem_winners.mp won).2.2
    refine List.mem_filter.mpr ⟨?_, ?_⟩
    · rw [contributed caller (List.mem_filter.mp callerIn).1]
      omega
    · simpa using List.mem_map_of_mem (f := Player.id) callerIn
  · rintro ⟨called, unbeaten⟩
    obtain ⟨rival, rivalIn, apart, same⟩ := calledUpTo_attained called
    have walk := levels_uniqueLevels game.contributions_pos
    have entry := mem_contributions distinct rivalIn (by omega)
    obtain ⟨layer, layerIn, contributors⟩ := (mem_potLayersFrom walk).2 _
      ((walk.covers _ entry).resolve_left (by omega))
    obtain ⟨level, _, contributed, upTo⟩ := sharedWith_iff distinct player layerIn
    have atLevel : rival.id ∈ layer.contributors := by
      rw [contributors, mem_contributorsAt (contributions_nodup distinct) entry]
    have reached := (contributed rival rivalIn).mp atLevel
    have shared := upTo.mpr (by omega)
    have won : player.id ∈ layer.winners (handsShown hands)
        (game.remainingPlayers.map Player.id) := by
      refine PotLayer.mem_winners.mpr ⟨List.mem_filter.mpr ⟨?_, ?_⟩, hand, ?_⟩
      · rw [contributed player member]
        omega
      · simpa using List.mem_map_of_mem (f := Player.id) remains
      · intro other eligible
        obtain ⟨paid, listed⟩ := List.mem_filter.mp eligible
        obtain ⟨caller, callerIn, rfl⟩ := List.mem_map.mp (of_decide_eq_true listed)
        by_cases self : caller.id = player.id
        · rw [self]
        · apply unbeaten caller callerIn self
          have seated := (List.mem_filter.mp callerIn).1
          rw [contributors, contributorsAt] at paid
          obtain ⟨found, inside, id⟩ := List.mem_map.mp paid
          obtain ⟨foundIn, reaches⟩ := List.mem_filter.mp inside
          rw [contributions_eq distinct] at foundIn
          obtain ⟨payer, payerIn, rfl⟩ := List.mem_map.mp foundIn
          have equal : payer = caller :=
            List.inj_on_of_nodup_map distinct (List.mem_filter.mp payerIn).1 seated id
          rw [equal] at reaches
          have enough := of_decide_eq_true reaches
          omega
    have some := PotLayer.award_pos_of_won (layer_filled layerIn) won
    have part := List.single_le_sum parts _ (List.mem_map_of_mem layerIn)
    rw [if_pos shared] at part
    omega

end Uncalled

/-- Whoever has an uncalled bet has been called in part, and no hand that called as much as any
other beats his. -/
def UncalledWins (game : PokerGame) : Prop :=
  ∀ player ∈ game.remainingPlayers, 0 < game.uncalledBet player →
    0 < game.calledUpTo player ∧
      ∀ caller ∈ game.remainingPlayers, caller.id ≠ player.id →
        game.calledUpTo player ≤ caller.totalBetThisHand →
        ∀ mine theirs, evaluateHand player.holeCards game.communityCards = .ok mine →
          evaluateHand caller.holeCards game.communityCards = .ok theirs →
          handBeats theirs mine = false

/-- The results list no one who only gets an uncalled bet back. -/
def ListsWinners (game : PokerGame) (result : ShowdownResult) : Prop :=
  ∀ award ∈ result.results, ∀ player ∈ game.players, player.id = award.playerId →
    game.uncalledBet player < award.winnings

theorem listsWinners_iff {hands : List PlayerHand} (distinct : (game.players.map Player.id).Nodup)
    (evaluated : evaluatePlayers game.communityCards game.remainingPlayers = .ok hands) :
    game.ListsWinners (game.contestedShowdown hands).2 ↔ game.UncalledWins := by
  have shown := evaluatePlayers_players evaluated
  have listed := mem_results distinct shown
  have rating : ∀ player ∈ game.remainingPlayers, ∃ hand,
      evaluateHand player.holeCards game.communityCards = .ok hand ∧
      rated ((handsShown hands).lookup player.id) = ↑hand.worth :=
    fun player remains => rated_handsShown distinct evaluated remains
  have more : ∀ player ∈ game.remainingPlayers, 0 < game.uncalledBet player →
      (game.uncalledBet player < game.awardTo hands player.id ↔
        0 < game.calledUpTo player ∧
          ∀ caller ∈ game.remainingPlayers, caller.id ≠ player.id →
            game.calledUpTo player ≤ caller.totalBetThisHand →
            ∀ mine theirs, evaluateHand player.holeCards game.communityCards = .ok mine →
              evaluateHand caller.holeCards game.communityCards = .ok theirs →
              handBeats theirs mine = false) := by
    intro player remains uncalled
    obtain ⟨hand, returned, worth⟩ := rating player remains
    rw [uncalledBet_lt_awardTo_iff distinct remains (by rw [worth]; exact WithBot.coe_ne_bot)
      uncalled]
    refine and_congr_right' (forall₄_congr fun caller callerIn _ _ => ?_)
    obtain ⟨other, answered, rival⟩ := rating caller callerIn
    rw [worth, rival, WithBot.coe_le_coe, ← not_lt, ← handBeats_iff, Bool.not_eq_true]
    constructor
    · intro unbeaten mine theirs sameMine sameTheirs
      rw [returned, Except.ok.injEq] at sameMine
      rw [answered, Except.ok.injEq] at sameTheirs
      rwa [← sameMine, ← sameTheirs]
    · exact fun unbeaten => unbeaten hand other returned answered
  constructor
  · intro winners player remains uncalled
    apply (more player remains uncalled).mp
    obtain ⟨hand, _, worth⟩ := rating player remains
    have holds : rated ((handsShown hands).lookup player.id) ≠ ⊥ := by
      rw [worth]
      exact WithBot.coe_ne_bot
    have gains := awardTo_uncalled distinct remains holds uncalled
    have shared := List.sum_nonneg (@shared_awards_nonneg game hands player.id)
    obtain ⟨award, inside, same, amount⟩ :=
      (listed player.id (game.awardTo hands player.id)).mpr ⟨rfl, by omega⟩
    rw [← amount]
    exact winners award inside player (List.mem_filter.mp remains).1 same.symm
  · intro condition award inside player member same
    obtain ⟨amount, positive⟩ := (listed award.playerId award.winnings).mp
      ⟨award, inside, rfl, rfl⟩
    rw [amount, ← same]
    rw [← same] at positive
    have remains : player ∈ game.remainingPlayers := by
      by_contra gone
      rw [awardTo_folded] at positive
      · exact absurd positive (lt_irrefl _)
      · intro listedId
        obtain ⟨other, otherIn, id⟩ := List.mem_map.mp listedId
        have equal : other = player :=
          List.inj_on_of_nodup_map distinct (List.mem_filter.mp otherIn).1 member id
        exact gone (equal ▸ otherIn)
    by_cases uncalled : 0 < game.uncalledBet player
    · exact (more player remains uncalled).mpr (condition player remains uncalled)
    · omega

end PokerGame

/-- In every showdown of two or more players of a driver run, the results list only players who
are awarded more than their uncalled bet exactly when every uncalled bet comes with a win. -/
theorem results_list_winners_iff (table : Table) (events : List DriverEvent) (state : DriverState)
    (played : Runs.run driverStep table.start events = some state) (stage : state.stage = .inHand)
    (contested : 2 ≤ state.game.remainingPlayers.length) :
    ∃ next result, state.game.conductShowdown = .ok (next, result) ∧
      (state.game.ListsWinners result ↔ state.game.UncalledWins) := by
  have reached := table.reached played
  obtain ⟨next, result, returned, _⟩ :=
    (reached.inPlay stage).showdown_pays reached.seated contested
  obtain ⟨hands, evaluated, paid⟩ := PokerGame.conductShowdown_evaluated returned contested
  have lists := PokerGame.listsWinners_iff reached.seated.distinct evaluated
  rw [← paid] at lists
  exact ⟨next, result, returned, lists⟩

def deepAgainstShort : Table := ⟨5, 10, [100, 50], 0, by decide, by decide, by decide, by decide⟩

def bothAllIn (shuffle : Shuffle) : List DriverEvent :=
  [.newHand shuffle, .decide ⟨.allIn, 0⟩, .decide ⟨.allIn, 0⟩, .nextPhase, .nextPhase, .nextPhase,
    .nextPhase]

/-- The short stack wins, and the deep one is listed with the fifty chips that were not called. -/
theorem refund_listed_as_win :
    ∃ state next result,
      Runs.run driverStep deepAgainstShort.start
        (bothAllIn ⟨Deck.standard.rotate 2, List.rotate_perm _ _⟩) = some state ∧
      state.game.currentPhase = .showdown ∧ 2 ≤ state.game.remainingPlayers.length ∧
      state.game.conductShowdown = .ok (next, result) ∧ result.winners = [1] ∧
      result.winningsOf 0 = 50 ∧ ¬ state.game.ListsWinners result := by
  have tested : ((Runs.run driverStep deepAgainstShort.start
      (bothAllIn ⟨Deck.standard.rotate 2, List.rotate_perm _ _⟩)).any fun state =>
        decide (state.game.currentPhase = .showdown ∧ 2 ≤ state.game.remainingPlayers.length) &&
        match state.game.conductShowdown with
        | .ok (_, result) => decide (result.winners = [1] ∧ result.winningsOf 0 = 50) &&
            result.results.any fun award => state.game.players.any fun player =>
              decide (player.id = award.playerId ∧
                award.winnings ≤ state.game.uncalledBet player)
        | .error _ => false) = true := by decide
  obtain ⟨state, played, tested⟩ := Option.any_eq_true _ _ |>.mp tested
  rw [Bool.and_eq_true, decide_eq_true_iff] at tested
  obtain ⟨⟨phase, contested⟩, tested⟩ := tested
  split at tested
  · rename_i next result returned
    rw [Bool.and_eq_true, decide_eq_true_iff] at tested
    obtain ⟨⟨winners, refund⟩, listed⟩ := tested
    obtain ⟨award, inside, found⟩ := List.any_eq_true.mp listed
    obtain ⟨player, member, facts⟩ := List.any_eq_true.mp found
    obtain ⟨same, few⟩ := of_decide_eq_true facts
    refine ⟨state, next, result, played, phase, contested, returned, winners, refund, ?_⟩
    intro lists
    exact absurd (lists award inside player member same) (not_lt.mpr few)
  · cases tested

/-- When the board plays for both, the deep stack gets his half of the pot as well. -/
theorem results_list_winners_tie :
    ∃ state next result,
      Runs.run driverStep deepAgainstShort.start (bothAllIn .unshuffled) = some state ∧
      state.game.conductShowdown = .ok (next, result) ∧ state.game.ListsWinners result := by
  have tested : ((Runs.run driverStep deepAgainstShort.start (bothAllIn .unshuffled)).any
      fun state => decide (state.stage = .inHand ∧ 2 ≤ state.game.remainingPlayers.length) &&
        state.game.remainingPlayers.all fun player => decide (0 < state.game.calledUpTo player) &&
          state.game.remainingPlayers.all fun caller =>
            (evaluateHand player.holeCards state.game.communityCards).toOption.all fun mine =>
              (evaluateHand caller.holeCards state.game.communityCards).toOption.all fun theirs =>
                !handBeats theirs mine) = true := by decide
  obtain ⟨state, played, tested⟩ := Option.any_eq_true _ _ |>.mp tested
  rw [Bool.and_eq_true, decide_eq_true_iff] at tested
  obtain ⟨⟨stage, contested⟩, tested⟩ := tested
  obtain ⟨next, result, returned, lists⟩ :=
    results_list_winners_iff deepAgainstShort _ state played stage contested
  refine ⟨state, next, result, played, returned, lists.mpr ?_⟩
  intro player remains _
  have checked := List.all_eq_true.mp tested player remains
  rw [Bool.and_eq_true, decide_eq_true_iff] at checked
  refine ⟨checked.1, ?_⟩
  intro caller callerIn _ _ mine theirs returnedMine returnedTheirs
  have unbeaten := List.all_eq_true.mp checked.2 caller callerIn
  rw [returnedMine, returnedTheirs] at unbeaten
  simpa [Except.toOption] using unbeaten

end Holdem
