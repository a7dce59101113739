import Tilework.Autotile
import Tilework.Proofs.Checked
import Tilework.Proofs.Number.Exact

namespace Tilework

/-- The place among the weights that `k` falls on. What the others leave belongs to the last one. -/
def drawnPlace (k : Nat) : List Nat → Nat
  | [] => 0
  | [_] => 0
  | weight :: rest => if k ≤ weight then 0 else drawnPlace (k - weight) rest + 1

section Places

variable {weights : List Nat} {k : Nat}

theorem drawnPlace_cons {rest : List Nat} (others : rest ≠ []) (weight : Nat) :
    drawnPlace k (weight :: rest) = if k ≤ weight then 0 else drawnPlace (k - weight) rest + 1 := by
  cases rest with
  | nil => exact absurd rfl others
  | cons next rest => rfl

theorem drawnPlace_zero (weights : List Nat) : drawnPlace 0 weights = 0 := by
  match weights with
  | [] => rfl
  | [_] => rfl
  | weight :: next :: rest => rw [drawnPlace_cons (List.cons_ne_nil next rest), if_pos (Nat.zero_le weight)]

theorem drawnPlace_monotone (weights : List Nat) {j k : Nat} (below : j ≤ k) :
    drawnPlace j weights ≤ drawnPlace k weights := by
  induction weights generalizing j k with
  | nil => exact Nat.le_refl _
  | cons weight rest ih =>
    by_cases others : rest = []
    · subst others
      exact Nat.le_refl _
    · rw [drawnPlace_cons others, drawnPlace_cons others]
      by_cases first : j ≤ weight
      · rw [if_pos first]
        exact Nat.zero_le _
      · rw [if_neg first, if_neg (by omega)]
        exact Nat.succ_le_succ (ih (by omega))

theorem weight_pos_of_drawn (positive : 0 < k) (within : k ≤ weights.foldr (· + ·) 0) :
    ∃ weight, weights[drawnPlace k weights]? = some weight ∧ 0 < weight := by
  induction weights generalizing k with
  | nil =>
    simp only [List.foldr_nil] at within
    omega
  | cons weight rest ih =>
    rw [List.foldr_cons] at within
    by_cases others : rest = []
    · subst others
      rw [List.foldr_nil] at within
      exact ⟨weight, rfl, by omega⟩
    · rw [drawnPlace_cons others]
      by_cases first : k ≤ weight
      · rw [if_pos first]
        exact ⟨weight, rfl, by omega⟩
      · rw [if_neg first, List.getElem?_cons_succ]
        exact ih (by omega) (by omega)

def drawsOn (draws weights : List Nat) (i : Nat) : Nat := draws.countP fun k => drawnPlace k weights == i

theorem drawsOn_only (draws : List Nat) (weight : Nat) : drawsOn draws [weight] 0 = draws.length := by
  rw [drawsOn, List.countP_eq_length]
  exact fun _ _ => rfl

variable {draws rest : List Nat}

theorem drawsOn_first (others : rest ≠ []) {weight : Nat} (reached : ∀ k ∈ draws, k ≤ weight) (i : Nat) :
    drawsOn draws (weight :: rest) i = if i = 0 then draws.length else 0 := by
  have first : ∀ k ∈ draws, drawnPlace k (weight :: rest) = 0 := by
    intro k member
    rw [drawnPlace_cons others, if_pos (reached k member)]
  unfold drawsOn
  split
  · rename_i here
    subst here
    rw [List.countP_eq_length]
    exact fun k member => beq_iff_eq.mpr (first k member)
  · rename_i later
    rw [List.countP_eq_zero]
    intro k member same
    rw [first k member, beq_iff_eq] at same
    exact later same.symm

theorem drawsOn_past (others : rest ≠ []) (weight : Nat) (positive : ∀ k ∈ draws, 0 < k) (i : Nat) :
    drawsOn (draws.map (weight + ·)) (weight :: rest) i = if i = 0 then 0 else drawsOn draws rest (i - 1) := by
  have past : ∀ k ∈ draws, drawnPlace (weight + k) (weight :: rest) = drawnPlace k rest + 1 := by
    intro k member
    have := positive k member
    rw [drawnPlace_cons others, if_neg (by omega), Nat.add_sub_cancel_left]
  unfold drawsOn
  rw [List.countP_map]
  split
  · rename_i here
    subst here
    rw [List.countP_eq_zero]
    intro k member same
    rw [Function.comp_apply, past k member, beq_iff_eq] at same
    omega
  · rename_i later
    refine List.countP_congr fun k member => ?_
    rw [Function.comp_apply, past k member, beq_iff_eq, beq_iff_eq]
    omega

/-- Every weight has its draws, apart from the zero and from the one that is not drawn because it would be the sum. -/
theorem drawsOn_positive (weights : List Nat) {i weight : Nat} (listed : weights[i]? = some weight) :
    drawsOn (List.range' 1 (weights.foldr (· + ·) 0 - 1)) weights i ≤ weight ∧
      weight ≤ drawsOn (List.range' 1 (weights.foldr (· + ·) 0 - 1)) weights i + 1 := by
  induction weights generalizing i with
  | nil => cases listed
  | cons first rest ih =>
    rw [List.foldr_cons]
    by_cases others : rest = []
    · subst others
      cases i with
      | zero =>
        cases listed
        rw [drawsOn_only, List.length_range', List.foldr_nil]
        omega
      | succ i => cases listed
    · have within : ∀ n ≤ first, ∀ k ∈ List.range' 1 n, k ≤ first := by
        intro n below k member
        have := List.mem_range'_1.mp member
        omega
      generalize rest.foldr (· + ·) 0 = sum at ih ⊢
      cases sum with
      | zero =>
        -- The rest weighs nothing, and no draw is left for it.
        rw [drawsOn_first others (within _ (by omega)), List.length_range']
        cases i with
        | zero =>
          cases listed
          rw [if_pos rfl]
          omega
        | succ i => exact ⟨Nat.zero_le _, (ih listed).2⟩
      | succ more =>
        have split : List.range' 1 (first + more) = List.range' 1 first ++ (List.range' 1 more).map (first + ·) := by
          rw [List.map_add_range', ← List.range'_append_1, Nat.add_comm first 1]
        have positive : ∀ k ∈ List.range' 1 more, 0 < k := fun k member => (List.mem_range'_1.mp member).1
        have both : drawsOn (List.range' 1 (first + more)) (first :: rest) i =
            (if i = 0 then first else 0) + if i = 0 then 0 else drawsOn (List.range' 1 more) rest (i - 1) := by
          have head := drawsOn_first others (within first (Nat.le_refl _)) i
          rw [List.length_range'] at head
          rw [split, drawsOn, List.countP_append, ← drawsOn_past others first positive i, ← head]
          rfl
        rw [Nat.add_succ_sub_one, both]
        cases i with
        | zero =>
          cases listed
          rw [if_pos rfl, if_pos rfl]
          omega
        | succ i =>
          rw [if_neg (Nat.succ_ne_zero i), if_neg (Nat.succ_ne_zero i), Nat.zero_add]
          exact ih listed

theorem drawsOn_range (n : Nat) (weights : List Nat) (i : Nat) :
    drawsOn (List.range (n + 1)) weights i = drawsOn (List.range' 1 n) weights i + if i = 0 then 1 else 0 := by
  have zero : (drawnPlace 0 weights == i) = true ↔ i = 0 := by
    rw [drawnPlace_zero, beq_iff_eq]
    exact eq_comm
  rw [drawsOn, List.range_eq_range', List.range'_succ, List.countP_cons, if_congr zero rfl rfl]
  rfl

end Places

section Choices

variable {outcomes : List Outcome} {weights : List Nat} {pick : Single} {k : Nat}

/-- The chances of the outcomes are these multiples of two to the power -24. -/
def Weighs (outcomes : List Outcome) (weights : List Nat) : Prop :=
  List.Forall₂ (fun outcome weight => outcome.chance.IsGrains weight) outcomes weights

theorem pickOutcome_cons {rest : List Outcome} (others : rest ≠ []) (first : Outcome) :
    pickOutcome pick (first :: rest) =
      if pick.le first.chance then .ok first else pickOutcome (pick.sub first.chance) rest := by
  cases rest with
  | nil => exact absurd rfl others
  | cons next rest => rfl

theorem pickOutcome_eq (weighs : Weighs outcomes weights) (given : outcomes ≠ []) (grains : pick.IsGrains k)
    (short : k < 0x1000000) :
    ∃ outcome, outcomes[drawnPlace k weights]? = some outcome ∧ pickOutcome pick outcomes = .ok outcome := by
  induction weighs generalizing pick k with
  | nil => exact absurd rfl given
  | @cons first weight rest others here tail ih =>
    by_cases last : rest = []
    · subst last
      cases tail
      exact ⟨first, rfl, rfl⟩
    · have more : others ≠ [] := by
        rintro rfl
        cases tail
        exact last rfl
      rw [drawnPlace_cons more, pickOutcome_cons last]
      by_cases reached : k ≤ weight
      · rw [if_pos reached, if_pos ((grains.le_iff here).mpr reached)]
        exact ⟨first, rfl, rfl⟩
      · rw [if_neg reached, if_neg fun below => reached ((grains.le_iff here).mp below)]
        exact ih last (grains.sub here short (by omega)) (by omega)

theorem isGrains_ofDraw (short : k < 0x1000000) : (Single.ofDraw k).IsGrains k := Single.isGrains_ofUnits short

theorem chooseOutcome_eq (several : 2 ≤ outcomes.length) (weighs : Weighs outcomes weights) (short : k < 0x1000000)
    {σ : Type} [DrawSource σ] {s t : σ} (drawn : DrawSource.draw s = (Single.ofDraw k, t)) :
    ∃ outcome, outcomes[drawnPlace k weights]? = some outcome ∧ chooseOutcome outcomes s = .ok (outcome, t) := by
  match outcomes, several with
  | first :: second :: rest, _ =>
    obtain ⟨outcome, found, picked⟩ :=
      pickOutcome_eq weighs (List.cons_ne_nil first _) (isGrains_ofDraw short) short
    refine ⟨outcome, found, Drawing.bind_eq_ok.mpr ⟨_, t, congrArg Except.ok drawn, ?_⟩⟩
    exact Drawing.lift_eq_ok.mpr ⟨picked, rfl⟩

end Choices

/-- Each outcome is chosen by as many of the 2^24 draws as its weight says, or by one more or less, since a boundary
belongs to the weight that ends there. Outcomes may have any names and variants, also the same ones. -/
theorem choice_fair {outcomes : List Outcome} {weights : List Nat} (several : 2 ≤ outcomes.length)
    (weighs : Weighs outcomes weights) (whole : weights.foldr (· + ·) 0 = 0x1000000) :
    (∀ k < 0x1000000, ∀ {σ : Type} [DrawSource σ] (s t : σ), DrawSource.draw s = (Single.ofDraw k, t) →
      ∃ outcome, outcomes[drawnPlace k weights]? = some outcome ∧ chooseOutcome outcomes s = .ok (outcome, t)) ∧
    (∀ j k, j ≤ k → drawnPlace j weights ≤ drawnPlace k weights) ∧
    ∀ i weight, weights[i]? = some weight →
      drawsOn (List.range 0x1000000) weights i ≤ weight + 1 ∧
        weight ≤ drawsOn (List.range 0x1000000) weights i + 1 := by
  refine ⟨?_, fun _ _ => drawnPlace_monotone weights, ?_⟩
  · intro k short σ _ s t drawn
    exact chooseOutcome_eq several weighs short drawn
  · intro i weight listed
    have positive := drawsOn_positive weights listed
    simp only [whole, Nat.reduceSub] at positive
    rw [drawsOn_range 0xFFFFFF]
    split <;> omega

/-- The second and the third outcome have the same name and variant, and the weights three quarters and one quarter. -/
def hedgedOutcomes : List Outcome :=
  [⟨"bare", ⟨0⟩, 0⟩, ⟨"green", ⟨0x3F400000⟩, 1⟩, ⟨"green", ⟨0x3E800000⟩, 1⟩]

theorem hedgedOutcomes_weigh : Weighs hedgedOutcomes [0, 0xC00000, 0x400000] :=
  .cons ⟨by decide, by decide⟩ (.cons ⟨by decide, by decide⟩ (.cons ⟨by decide, by decide⟩ .nil))

theorem choice_fair_hedgedOutcomes :
    2 ≤ hedgedOutcomes.length ∧ Weighs hedgedOutcomes [0, 0xC00000, 0x400000] ∧
    [0, 0xC00000, 0x400000].foldr (· + ·) 0 = 0x1000000 ∧
    chooseOutcome hedgedOutcomes (Scripted.mk #[Single.ofDraw 0xC00000] 0) =
      .ok (⟨"green", ⟨0x3F400000⟩, 1⟩, Scripted.mk #[Single.ofDraw 0xC00000] 1) ∧
    drawnPlace 0xC00000 [0, 0xC00000, 0x400000] = 1 ∧ drawnPlace 0xC00001 [0, 0xC00000, 0x400000] = 2 ∧
    drawsOn (List.range 0x1000000) [0, 0xC00000, 0x400000] 2 ≤ 0x400001 ∧
    0x400000 ≤ drawsOn (List.range 0x1000000) [0, 0xC00000, 0x400000] 2 + 1 := by
  obtain ⟨chosen, -, counted⟩ := choice_fair (by decide) hedgedOutcomes_weigh (by decide)
  refine ⟨by decide, hedgedOutcomes_weigh, by decide, ?_, by decide, by decide, counted 2 _ rfl⟩
  obtain ⟨outcome, found, done⟩ := chosen 0xC00000 (by decide) (Scripted.mk #[Single.ofDraw 0xC00000] 0) _ rfl
  cases found
  exact done

/-- An outcome without weight is chosen if it is the first one and the draw is zero, and in no other case. -/
theorem weightless_chosen_iff {outcomes : List Outcome} {weights : List Nat} (several : 2 ≤ outcomes.length)
    (weighs : Weighs outcomes weights) (whole : weights.foldr (· + ·) 0 = 0x1000000) {k : Nat} (short : k < 0x1000000)
    {σ : Type} [DrawSource σ] {s t : σ} (drawn : DrawSource.draw s = (Single.ofDraw k, t)) :
    ∃ outcome ∈ outcomes, chooseOutcome outcomes s = .ok (outcome, t) ∧
      (0 < outcome.chance.value ↔ ¬(k = 0 ∧ weights.head? = some 0)) ∧ (k = 0 → outcomes.head? = some outcome) := by
  obtain ⟨outcome, found, done⟩ := chooseOutcome_eq several weighs short drawn
  obtain ⟨weight, listed, grains⟩ := exists_right_of_forall₂ weighs found
  refine ⟨outcome, List.mem_of_getElem? found, done, ?_, ?_⟩
  · rw [grains.value_pos]
    by_cases zero : k = 0
    · subst zero
      rw [drawnPlace_zero, ← List.head?_eq_getElem?] at listed
      rw [listed, Option.some.injEq]
      omega
    · have within : k ≤ weights.foldr (· + ·) 0 := by omega
      obtain ⟨other, same, positive⟩ := weight_pos_of_drawn (Nat.pos_of_ne_zero zero) within
      rw [listed] at same
      cases same
      exact iff_of_true positive fun both => zero both.1
  · rintro rfl
    rw [drawnPlace_zero] at found
    rw [List.head?_eq_getElem?, found]

theorem weightless_chosen_iff_hedgedOutcomes :
    2 ≤ hedgedOutcomes.length ∧ Weighs hedgedOutcomes [0, 0xC00000, 0x400000] ∧
    [0, 0xC00000, 0x400000].foldr (· + ·) 0 = 0x1000000 ∧
    DrawSource.draw (Scripted.mk #[Single.ofDraw 1] 0) = (Single.ofDraw 1, Scripted.mk #[Single.ofDraw 1] 1) ∧
    ∃ outcome ∈ hedgedOutcomes, chooseOutcome hedgedOutcomes (Scripted.mk #[Single.ofDraw 1] 0) =
      .ok (outcome, Scripted.mk #[Single.ofDraw 1] 1) ∧ 0 < outcome.chance.value := by
  have drawn : DrawSource.draw (Scripted.mk #[Single.ofDraw 1] 0) =
      (Single.ofDraw 1, Scripted.mk #[Single.ofDraw 1] 1) := rfl
  obtain ⟨outcome, member, done, positive, -⟩ :=
    weightless_chosen_iff (by decide) hedgedOutcomes_weigh (by decide) (by decide) drawn
  exact ⟨by decide, hedgedOutcomes_weigh, by decide, drawn, outcome, member, done, positive.mpr (by decide)⟩

theorem bareOutcome_chosen :
    2 ≤ hedgedOutcomes.length ∧ Weighs hedgedOutcomes [0, 0xC00000, 0x400000] ∧
    [0, 0xC00000, 0x400000].foldr (· + ·) 0 = 0x1000000 ∧
    DrawSource.draw (Scripted.mk #[Single.ofDraw 0] 0) = (Single.ofDraw 0, Scripted.mk #[Single.ofDraw 0] 1) ∧
    chooseOutcome hedgedOutcomes (Scripted.mk #[Single.ofDraw 0] 0) =
      .ok (⟨"bare", ⟨0⟩, 0⟩, Scripted.mk #[Single.ofDraw 0] 1) ∧
    ¬0 < (⟨0⟩ : Single).value :=
  ⟨by decide, hedgedOutcomes_weigh, by decide, rfl, rfl, by decide⟩

end Tilework
