import Holdem.PotLayers

set_option autoImplicit false

namespace Holdem

/-! ### Evaluation never raises on a player who holds a card -/

theorem bestOf_ok {best : Option HandResult} {selections : List (List Card)}
    (five : ∀ cards ∈ selections, cards.length = 5) (some : best.isSome ∨ selections ≠ []) :
    ∃ hand, bestOf best selections = .ok (Option.some hand) := by
  induction selections generalizing best with
  | nil =>
      obtain ⟨hand, rfl⟩ := Option.isSome_iff_exists.mp (some.resolve_right (by simp))
      exact ⟨hand, rfl⟩
  | cons cards rest ih =>
      have size : cards.length = 5 := five cards (by simp)
      simp only [bestOf, evaluateFiveCards, size, ne_eq, not_true_eq_false, ↓reduceIte]
      apply ih fun other member => five other (List.mem_cons_of_mem _ member)
      refine Or.inl ?_
      cases best with
      | none => rfl
      | some held => split <;> rfl

theorem evaluateHand_ok {holeCards : List Card} (communityCards : List Card)
    (held : holeCards ≠ []) : ∃ hand, evaluateHand holeCards communityCards = .ok hand := by
  unfold evaluateHand
  dsimp only
  split
  · have size : (sortByRank (holeCards ++ communityCards)).length =
        (holeCards ++ communityCards).length := List.length_insertionSort ..
    split
    · rename_i empty
      have positive := List.length_pos_of_ne_nil held
      rw [empty, List.length_append, List.length_nil] at size
      omega
    · exact ⟨_, rfl⟩
  · rename_i enough
    have enough : 5 ≤ (holeCards ++ communityCards).length := by omega
    have chosen : ∃ hand, bestOf none (Combinations.choose 5 (holeCards ++ communityCards)) =
        .ok (some hand) :=
      bestOf_ok (fun cards member => (Combinations.mem_choose.mp member).2)
        (Or.inr (Combinations.choose_ne_nil enough))
    obtain ⟨hand, best⟩ := chosen
    rw [best]
    exact ⟨hand, rfl⟩

namespace PokerGame

theorem evaluatePlayers_ok (communityCards : List Card) {players : List Player}
    (held : ∀ player ∈ players, player.holeCards ≠ []) :
    ∃ hands, evaluatePlayers communityCards players = .ok hands ∧
      hands.map PlayerHand.player = players := by
  induction players with
  | nil => exact ⟨[], rfl, rfl⟩
  | cons player rest ih =>
      obtain ⟨hand, evaluated⟩ := evaluateHand_ok communityCards (held player (by simp))
      obtain ⟨hands, others, same⟩ := ih fun other member => held other (List.mem_cons_of_mem _ member)
      refine ⟨⟨player, hand⟩ :: hands, by simp [evaluatePlayers, evaluated, others], ?_⟩
      rw [List.map_cons, same]

theorem evaluatePlayers_players {communityCards : List Card} {players : List Player}
    {hands : List PlayerHand} (evaluated : evaluatePlayers communityCards players = .ok hands) :
    hands.map PlayerHand.player = players := by
  induction players generalizing hands with
  | nil =>
      cases evaluated
      rfl
  | cons player rest ih =>
      unfold evaluatePlayers at evaluated
      split at evaluated
      · cases evaluated
      · split at evaluated
        · cases evaluated
        · rename_i others
          cases evaluated
          rw [List.map_cons, ih others]

/-! ### Contributions -/

theorem contributions_pos (game : PokerGame) : ∀ entry ∈ game.contributions, 0 < entry.2 := by
  intro entry member
  simpa using (List.mem_filter.mp member).2

/-- With distinct ids the contributions are the totals of the players who paid. -/
theorem contributions_eq {game : PokerGame} (distinct : (game.players.map Player.id).Nodup) :
    game.contributions =
      (game.players.filter fun player => decide (0 < player.totalBetThisHand)).map fun player =>
        (player.id, player.totalBetThisHand) := by
  have keys : (game.players.map fun player =>
      (player.id, max 0 player.totalBetThisHand)).map Prod.fst = game.players.map Player.id := by
    rw [List.map_map]
    rfl
  unfold contributions
  rw [Dict.ofPairs_of_nodup (keys ▸ distinct), List.filter_map]
  have sameTest : game.players.filter ((fun entry : Int × Int => decide (entry.2 > 0)) ∘
      fun player => (player.id, max 0 player.totalBetThisHand)) =
      game.players.filter fun player => decide (0 < player.totalBetThisHand) := by
    apply List.filter_congr
    intro player _
    simp
  rw [sameTest]
  apply List.map_congr_left
  intro player member
  have paid : 0 < player.totalBetThisHand := by simpa using (List.mem_filter.mp member).2
  rw [Int.max_eq_right (Int.le_of_lt paid)]

theorem sum_filter_positive {players : List Player}
    (nonneg : ∀ player ∈ players, 0 ≤ player.totalBetThisHand) :
    ((players.filter fun player => decide (0 < player.totalBetThisHand)).map
        Player.totalBetThisHand).sum = (players.map Player.totalBetThisHand).sum := by
  induction players with
  | nil => rfl
  | cons player rest ih =>
      have here := nonneg player (by simp)
      have later := ih fun other member => nonneg other (List.mem_cons_of_mem _ member)
      rw [List.filter_cons, List.map_cons, List.sum_cons, ← later]
      split
      · rfl
      · rename_i paid
        have zero : player.totalBetThisHand = 0 := by
          have : ¬ 0 < player.totalBetThisHand := by simpa using paid
          omega
        rw [zero, Int.zero_add]

theorem sum_buildPotLayers {game : PokerGame} (distinct : (game.players.map Player.id).Nodup)
    (nonneg : ∀ player ∈ game.players, 0 ≤ player.totalBetThisHand) :
    ((buildPotLayers game.contributions).map PotLayer.amount).sum =
      (game.players.map Player.totalBetThisHand).sum := by
  have positive := game.contributions_pos
  unfold buildPotLayers
  rw [sum_potLayersFrom (levels_uniqueLevels positive), contributions_eq distinct,
    List.map_map, ← sum_filter_positive nonneg]
  congr 1
  apply List.map_congr_left
  intro player member
  have := nonneg player (List.mem_filter.mp member).1
  simp only [Function.comp_apply]
  omega

/-- Some player still in the hand has put in as much as anyone. -/
def TopClaimed (game : PokerGame) : Prop :=
  ∃ player ∈ game.remainingPlayers,
    ∀ other ∈ game.players, other.totalBetThisHand ≤ player.totalBetThisHand

instance (game : PokerGame) : Decidable game.TopClaimed :=
  inferInstanceAs (Decidable (∃ player ∈ game.remainingPlayers,
    ∀ other ∈ game.players, other.totalBetThisHand ≤ player.totalBetThisHand))

theorem layers_claimed_iff_topClaimed {game : PokerGame}
    (distinct : (game.players.map Player.id).Nodup)
    (nonneg : ∀ player ∈ game.players, 0 ≤ player.totalBetThisHand)
    (someone : game.remainingPlayers ≠ []) :
    (∀ layer ∈ buildPotLayers game.contributions,
        layer.claimed (game.remainingPlayers.map Player.id) = true) ↔ game.TopClaimed := by
  have positive := game.contributions_pos
  rw [layers_claimed_iff positive, contributions_eq distinct]
  constructor
  · rintro (nothing | ⟨entry, inside, shown, largest⟩)
    · obtain ⟨player, member⟩ := List.exists_mem_of_ne_nil _ someone
      refine ⟨player, member, ?_⟩
      intro other otherIn
      have zero : ¬ 0 < other.totalBetThisHand := by
        rw [List.map_eq_nil_iff, List.filter_eq_nil_iff] at nothing
        simpa using nothing other otherIn
      have := nonneg player (List.mem_filter.mp member).1
      omega
    · obtain ⟨payer, payerIn, rfl⟩ := List.mem_map.mp inside
      obtain ⟨player, member, same⟩ := List.mem_map.mp shown
      have equal : player = payer := List.inj_on_of_nodup_map distinct
        (List.mem_filter.mp member).1 (List.mem_filter.mp payerIn).1 same
      subst equal
      refine ⟨player, member, ?_⟩
      intro other otherIn
      by_cases paid : 0 < other.totalBetThisHand
      · exact largest (other.id, other.totalBetThisHand)
          (List.mem_map.mpr ⟨other, by simp [otherIn, paid], rfl⟩)
      · have := nonneg player (List.mem_filter.mp member).1
        omega
  · rintro ⟨player, member, largest⟩
    have playerIn := (List.mem_filter.mp member).1
    by_cases paid : 0 < player.totalBetThisHand
    · refine Or.inr ⟨(player.id, player.totalBetThisHand), ?_, List.mem_map_of_mem member, ?_⟩
      · exact List.mem_map.mpr ⟨player, by simp [playerIn, paid], rfl⟩
      · intro entry inside
        obtain ⟨other, otherIn, rfl⟩ := List.mem_map.mp inside
        exact largest other (List.mem_filter.mp otherIn).1
    · refine Or.inl ?_
      rw [List.map_eq_nil_iff, List.filter_eq_nil_iff]
      intro other otherIn
      have := largest other otherIn
      simp only [decide_eq_true_eq]
      omega

/-! ### The whole showdown -/

end PokerGame

def ShowdownResult.paid (result : ShowdownResult) : Int :=
  (result.results.map Award.winnings).sum

namespace PokerGame

def settled (game : PokerGame) (hands : List PlayerHand) : Distribution :=
  distributeLayers (Dict.ofPairs (hands.map fun shown => (shown.player.id, shown.hand)))
    (game.remainingPlayers.map Player.id) (buildPotLayers game.contributions)

theorem shown_lookup {game : PokerGame} {hands : List PlayerHand}
    (distinct : (game.players.map Player.id).Nodup)
    (shown : hands.map PlayerHand.player = game.remainingPlayers) :
    ∀ playerId ∈ game.remainingPlayers.map Player.id,
      ((Dict.ofPairs (hands.map fun shown => (shown.player.id, shown.hand))).lookup
        playerId).isSome := by
  have keys : (hands.map fun shown => (shown.player.id, shown.hand)).map Prod.fst =
      game.remainingPlayers.map Player.id := by
    rw [← shown, List.map_map, List.map_map]
    rfl
  have distinctShown : (game.remainingPlayers.map Player.id).Nodup :=
    distinct.sublist (List.Sublist.map Player.id List.filter_sublist)
  intro playerId member
  rw [Dict.ofPairs_of_nodup (keys ▸ distinctShown)]
  rw [← keys] at member
  obtain ⟨entry, inside, rfl⟩ := List.mem_map.mp member
  rw [(Dict.lookup_eq_some_iff_mem (keys ▸ distinctShown)).mpr
    (show (entry.1, entry.2) ∈ _ from inside)]
  rfl

/-- `get_player` finds every winner, so the report lists all winnings. -/
theorem settled_found {game : PokerGame} {hands : List PlayerHand}
    (winners : ∀ key ∈ (game.settled hands).winningsMap.map Prod.fst,
      key ∈ game.remainingPlayers.map Player.id) :
    ∀ item ∈ sortedItems (game.settled hands).winningsMap,
      (game.getPlayer item.1).isSome = true := by
  intro item member
  have inMap := (List.perm_insertionSort _ _).mem_iff.mp member
  have listed := winners item.1 (List.mem_map_of_mem inMap)
  obtain ⟨player, inside, same⟩ := List.mem_map.mp listed
  simp only [getPlayer, List.find?_isSome]
  exact ⟨player, (List.mem_filter.mp inside).1, by simp [same]⟩

theorem contestedShowdown_paid {game : PokerGame} {hands : List PlayerHand}
    (winners : ∀ key ∈ (game.settled hands).winningsMap.map Prod.fst,
      key ∈ game.remainingPlayers.map Player.id) :
    (game.contestedShowdown hands).2.paid = (game.settled hands).won := by
  have order : (sortedItems (game.settled hands).winningsMap).Perm
      (game.settled hands).winningsMap := List.perm_insertionSort _ _
  have found := settled_found winners
  have report : (game.contestedShowdown hands).2.results.map Award.winnings =
      (sortedItems (game.settled hands).winningsMap).map Prod.snd := by
    change (((sortedItems (game.settled hands).winningsMap).filter fun item =>
      (game.getPlayer item.1).isSome).map _).map Award.winnings = _
    rw [List.filter_eq_self.mpr found, List.map_map]
    rfl
  unfold ShowdownResult.paid Distribution.won
  rw [report]
  exact (order.map Prod.snd).sum_eq

/-- A contested showdown pays out the claimed layers: it reports their sum, takes it from
the pot, and this is everything exactly when the top layer is claimed. -/
theorem contestedShowdown_pays {game : PokerGame} {hands : List PlayerHand}
    (distinct : (game.players.map Player.id).Nodup)
    (nonneg : ∀ player ∈ game.players, 0 ≤ player.totalBetThisHand)
    (pot : game.pot = (game.players.map Player.totalBetThisHand).sum)
    (someone : game.remainingPlayers ≠ [])
    (shown : hands.map PlayerHand.player = game.remainingPlayers) :
    (game.contestedShowdown hands).1.pot =
        game.pot - (game.contestedShowdown hands).2.paid ∧
      ((game.contestedShowdown hands).2.paid = game.pot ↔ game.TopClaimed) := by
  have positive := game.contributions_pos
  have amounts : ∀ layer ∈ buildPotLayers game.contributions, 0 < layer.amount :=
    fun layer member => ((mem_potLayersFrom (levels_uniqueLevels positive)).1 layer member).1
  obtain ⟨awarded, won, winners⟩ :=
    distributeLayers_spec (shown_lookup distinct shown) (buildPotLayers game.contributions)
  have claimedSum := sum_filtered_le
    (fun layer => layer.claimed (game.remainingPlayers.map Player.id)) amounts
  rw [layers_claimed_iff_topClaimed distinct nonneg someone, sum_buildPotLayers distinct nonneg,
    ← pot, ← won] at claimedSum
  have left : (game.contestedShowdown hands).1.pot =
      max 0 (game.pot - (game.settled hands).totalAwarded) := rfl
  have same : (game.settled hands).totalAwarded = (game.settled hands).won := awarded.trans won.symm
  rw [contestedShowdown_paid winners, left, same]
  obtain ⟨atMost, exactly⟩ := claimedSum
  have atMost : (game.settled hands).won ≤ game.pot := atMost
  exact ⟨by omega, exactly⟩

theorem conductShowdown_returns {game : PokerGame}
    (held : ∀ player ∈ game.remainingPlayers, player.holeCards ≠ []) :
    ∃ settled, game.conductShowdown = .ok settled := by
  unfold conductShowdown
  split
  · exact ⟨_, rfl⟩
  · exact ⟨_, rfl⟩
  · rename_i first second rest listed
    obtain ⟨hands, evaluated, _⟩ := evaluatePlayers_ok game.communityCards held
    rw [← listed, evaluated]
    exact ⟨_, rfl⟩

/-! ### Stacks -/

theorem creditPlayer_nonneg {players : List Player} (playerId : Int) {amount : Int}
    (nonneg : ∀ player ∈ players, 0 ≤ player.chips) (positive : 0 ≤ amount) :
    (∀ player ∈ creditPlayer players playerId amount, 0 ≤ player.chips) ∧
      (creditPlayer players playerId amount).length = players.length := by
  unfold creditPlayer
  split
  · exact ⟨nonneg, rfl⟩
  · rename_i player found
    obtain ⟨seat, here, _, written⟩ := putPlayer_eq_set found
    rw [written { player with chips := player.chips + amount } rfl]
    refine ⟨?_, List.length_set⟩
    intro other member
    rcases List.mem_or_eq_of_mem_set member with old | rfl
    · exact nonneg other old
    · have := nonneg player (List.mem_of_getElem? here)
      dsimp only
      omega

theorem creditAll_nonneg {players : List Player} {items : List (Int × Int)}
    (nonneg : ∀ player ∈ players, 0 ≤ player.chips) (positive : ∀ item ∈ items, 0 ≤ item.2) :
    (∀ player ∈ creditAll players items, 0 ≤ player.chips) ∧
      (creditAll players items).length = players.length := by
  induction items generalizing players with
  | nil => exact ⟨nonneg, rfl⟩
  | cons item rest ih =>
      obtain ⟨credited, size⟩ := creditPlayer_nonneg item.1 nonneg (positive item (by simp))
      obtain ⟨final, length⟩ := ih credited fun other member =>
        positive other (List.mem_cons_of_mem _ member)
      exact ⟨final, length.trans size⟩

theorem settled_nonneg (game : PokerGame) (hands : List PlayerHand) :
    ∀ item ∈ sortedItems (game.settled hands).winningsMap, 0 ≤ item.2 := by
  have positive := game.contributions_pos
  have amounts : ∀ layer ∈ buildPotLayers game.contributions, 0 ≤ layer.amount :=
    fun layer member =>
      Int.le_of_lt ((mem_potLayersFrom (levels_uniqueLevels positive)).1 layer member).1
  intro item member
  exact distributeLayers_nonneg _ _ amounts item.2
    (List.mem_map_of_mem ((List.perm_insertionSort _ _).mem_iff.mp member))

/-- A showdown that returns leaves every stack and the pot non-negative, and changes
neither the number of seats nor the deck or phase. -/
theorem conductShowdown_nonneg {game next : PokerGame} {result : ShowdownResult}
    (nonneg : ∀ player ∈ game.players, 0 ≤ player.chips) (pot : 0 ≤ game.pot)
    (returned : game.conductShowdown = .ok (next, result)) :
    (∀ player ∈ next.players, 0 ≤ player.chips) ∧ 0 ≤ next.pot ∧
      next.players.length = game.players.length ∧ next.deck = game.deck ∧
      next.currentPhase = game.currentPhase := by
  unfold conductShowdown at returned
  split at returned
  · cases returned
    exact ⟨nonneg, pot, rfl, rfl, rfl⟩
  · cases returned
    refine ⟨?_, pot, List.length_map .., rfl, rfl⟩
    intro player member
    obtain ⟨before, inside, rfl⟩ := List.mem_map.mp member
    have := nonneg before inside
    split
    · dsimp only
      omega
    · exact this
  · split at returned
    · cases returned
    · rename_i hands _
      cases returned
      obtain ⟨credited, size⟩ := creditAll_nonneg nonneg (game.settled_nonneg hands)
      exact ⟨credited, Int.le_max_left _ _, size, rfl, rfl⟩

theorem creditPlayer_sum {players : List Player} {playerId : Int} (amount : Int)
    (present : playerId ∈ players.map Player.id) :
    ((creditPlayer players playerId amount).map Player.chips).sum =
      (players.map Player.chips).sum + amount := by
  unfold creditPlayer
  split
  · rename_i missing
    obtain ⟨player, member, same⟩ := List.mem_map.mp present
    rw [List.find?_eq_none] at missing
    exact absurd (by simp [same]) (missing player member)
  · rename_i player found
    obtain ⟨seat, here, _, written⟩ := putPlayer_eq_set found
    rw [written { player with chips := player.chips + amount } rfl, sum_map_set _ here]
    dsimp only
    omega

/-- Paying the winnings out changes nothing of the players that ignores their chips. -/
theorem creditAll_map {β : Type} {f : Player → β}
    (ignores : ∀ player chips, f { player with chips := chips } = f player)
    (players : List Player) (items : List (Int × Int)) :
    (creditAll players items).map f = players.map f := by
  induction items generalizing players with
  | nil => rfl
  | cons item rest ih =>
      refine (ih (creditPlayer players item.1 item.2)).trans ?_
      unfold creditPlayer
      split
      · rfl
      · rename_i player found
        obtain ⟨seat, here, _, written⟩ := putPlayer_eq_set found
        rw [written { player with chips := player.chips + item.2 } rfl]
        exact map_set_of_eq here (ignores player _)

theorem creditAll_sum {players : List Player} {items : List (Int × Int)}
    (present : ∀ item ∈ items, item.1 ∈ players.map Player.id) :
    ((creditAll players items).map Player.chips).sum =
      (players.map Player.chips).sum + (items.map Prod.snd).sum := by
  induction items generalizing players with
  | nil => simp [creditAll]
  | cons item rest ih =>
      have ids : (creditPlayer players item.1 item.2).map Player.id = players.map Player.id :=
        creditAll_map (fun _ _ => rfl) players [item]
      have known : ∀ other ∈ rest,
          other.1 ∈ (creditPlayer players item.1 item.2).map Player.id := by
        intro other member
        rw [ids]
        exact present other (List.mem_cons_of_mem _ member)
      rw [List.map_cons, List.sum_cons]
      refine (ih known).trans ?_
      rw [creditPlayer_sum item.2 (present item (by simp))]
      omega

theorem conductShowdown_map {β : Type} {f : Player → β}
    (ignores : ∀ player chips, f { player with chips := chips } = f player)
    {game next : PokerGame} {result : ShowdownResult}
    (returned : game.conductShowdown = .ok (next, result)) :
    next.players.map f = game.players.map f := by
  unfold conductShowdown at returned
  split at returned
  · cases returned
    rfl
  · cases returned
    rw [List.map_map]
    apply List.map_congr_left
    intro player _
    simp only [Function.comp_apply]
    split
    · exact ignores player _
    · rfl
  · split at returned
    · cases returned
    · cases returned
      exact creditAll_map ignores _ _

/-- A showdown leaves the seating, the blinds, the turn and the end of the round alone. -/
theorem conductShowdown_seats {game next : PokerGame} {result : ShowdownResult}
    (returned : game.conductShowdown = .ok (next, result)) :
    next.players.map Player.id = game.players.map Player.id ∧
      next.smallBlind = game.smallBlind ∧ next.bigBlind = game.bigBlind ∧
      next.bettingRoundComplete = game.bettingRoundComplete ∧
      next.dealerButton = game.dealerButton ∧
      next.currentPlayerIndex = game.currentPlayerIndex := by
  refine ⟨conductShowdown_map (fun _ _ => rfl) returned, ?_⟩
  unfold conductShowdown at returned
  split at returned
  · cases returned
    exact ⟨rfl, rfl, rfl, rfl, rfl⟩
  · cases returned
    exact ⟨rfl, rfl, rfl, rfl, rfl⟩
  · split at returned
    · cases returned
    · cases returned
      exact ⟨rfl, rfl, rfl, rfl, rfl⟩

/-- A contested showdown hands out to the stacks what it has computed as won. -/
theorem contestedShowdown_stacks {game : PokerGame} {hands : List PlayerHand}
    (distinct : (game.players.map Player.id).Nodup)
    (shown : hands.map PlayerHand.player = game.remainingPlayers) :
    ((game.contestedShowdown hands).1.players.map Player.chips).sum =
      (game.players.map Player.chips).sum + (game.settled hands).won := by
  have order : (sortedItems (game.settled hands).winningsMap).Perm
      (game.settled hands).winningsMap := List.perm_insertionSort _ _
  obtain ⟨_, _, winners⟩ :=
    distributeLayers_spec (shown_lookup distinct shown) (buildPotLayers game.contributions)
  change ((creditAll game.players (sortedItems (game.settled hands).winningsMap)).map
    Player.chips).sum = _
  rw [creditAll_sum, (order.map Prod.snd).sum_eq]
  · rfl
  · intro item member
    have listed := winners item.1 (List.mem_map_of_mem (order.mem_iff.mp member))
    exact (List.Sublist.map Player.id List.filter_sublist).subset listed

theorem conductShowdown_evaluated {game next : PokerGame} {result : ShowdownResult}
    (returned : game.conductShowdown = .ok (next, result))
    (several : 2 ≤ game.remainingPlayers.length) :
    ∃ hands, evaluatePlayers game.communityCards game.remainingPlayers = .ok hands ∧
      (next, result) = game.contestedShowdown hands := by
  unfold conductShowdown at returned
  split at returned
  · rename_i listed
    rw [listed] at several
    cases several
  · rename_i listed
    rw [listed] at several
    simp at several
  · rename_i listed
    split at returned
    · cases returned
    · rename_i hands evaluated
      rw [← listed] at evaluated
      exact ⟨hands, evaluated, (Except.ok.inj returned).symm⟩

theorem conductShowdown_contested {game next : PokerGame} {result : ShowdownResult}
    (returned : game.conductShowdown = .ok (next, result))
    (several : 2 ≤ game.remainingPlayers.length) :
    ∃ hands, hands.map PlayerHand.player = game.remainingPlayers ∧
      (next, result) = game.contestedShowdown hands := by
  obtain ⟨hands, evaluated, paid⟩ := conductShowdown_evaluated returned several
  exact ⟨hands, evaluatePlayers_players evaluated, paid⟩

theorem conductShowdown_cards {game next : PokerGame} {result : ShowdownResult}
    (returned : game.conductShowdown = .ok (next, result)) :
    next.deck = game.deck ∧ next.currentPhase = game.currentPhase ∧
      next.communityCards = game.communityCards := by
  unfold conductShowdown at returned
  split at returned
  · cases returned
    exact ⟨rfl, rfl, rfl⟩
  · cases returned
    exact ⟨rfl, rfl, rfl⟩
  · split at returned
    · cases returned
    · cases returned
      exact ⟨rfl, rfl, rfl⟩

end PokerGame

end Holdem
