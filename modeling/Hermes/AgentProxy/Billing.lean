import Hermes.AgentProxy.Events
import Hermes.Library.Binary64
import Mathlib.Data.Rat.Floor
import Mathlib.Tactic.GCongr

/-!
# Usage to credits

The price of a run as a function of its token counts, computed in floats.  Nothing in the settings
keeps a rate from being negative, infinite or no number.
-/

namespace Hermes.AgentProxy

/-- `CREDITS_PER_1K_INPUT` and `CREDITS_PER_1K_OUTPUT`: floats, as the settings hold them, or exact
numbers for what is said about prices apart from their rounding. -/
inductive Rates
  | floats (creditsPer1kInput creditsPer1kOutput : PyFloat)
  | exact (creditsPer1kInput creditsPer1kOutput : ℚ)
  deriving DecidableEq, Repr

/-- `math.ceil`. -/
def ceilFloat : PyFloat → Except PyError Int
  | .finite value => .ok ⌈value⌉
  | .nan => .error .valueError
  | .infinite _ => .error .overflowError

/-- The cost of some tokens before it is rounded up. -/
def rawCost (creditsPer1kInput creditsPer1kOutput inputTokens outputTokens : PyFloat) : PyFloat :=
  ((inputTokens.divBy 1000).mul creditsPer1kInput).add
    ((outputTokens.divBy 1000).mul creditsPer1kOutput)

/-- The cost rounded up: a count which is no float and a cost which is no number raise. -/
def Rates.cost (rates : Rates) (inputTokens outputTokens : Int) : Except PyError Int :=
  match rates with
  | .floats creditsPer1kInput creditsPer1kOutput =>
      match PyFloat.ofInt inputTokens, PyFloat.ofInt outputTokens with
      | some input, some output =>
          ceilFloat
            (rawCost creditsPer1kInput creditsPer1kOutput (.finite input) (.finite output))
      | _, _ => .error .overflowError
  | .exact creditsPer1kInput creditsPer1kOutput =>
      .ok ⌈(inputTokens : ℚ) / 1000 * creditsPer1kInput +
        (outputTokens : ℚ) / 1000 * creditsPer1kOutput⌉

/-- `usage_to_credits`: rounded up, and at least one credit for any usage at all. -/
def usageToCredits (rates : Rates) (inputTokens outputTokens : Int) : Except PyError Int :=
  let safeInput := max inputTokens 0
  let safeOutput := max outputTokens 0
  if safeInput = 0 ∧ safeOutput = 0 then .ok 0
  else (max · 1) <$> rates.cost safeInput safeOutput

/-- The price of some tokens where they have one. -/
def Rates.price (rates : Rates) (inputTokens outputTokens : Int) : Int :=
  match usageToCredits rates inputTokens outputTokens with
  | .ok credits => credits
  | .error _ => 0

/-- The rates are numbers, and none of them is negative. -/
def Rates.Nonneg : Rates → Prop
  | .floats creditsPer1kInput creditsPer1kOutput =>
      (∃ rate, creditsPer1kInput = .finite rate ∧ 0 ≤ rate) ∧
        ∃ rate, creditsPer1kOutput = .finite rate ∧ 0 ≤ rate
  | .exact creditsPer1kInput creditsPer1kOutput => 0 ≤ creditsPer1kInput ∧ 0 ≤ creditsPer1kOutput

section Price

variable {rates : Rates} {inputTokens moreInput outputTokens moreOutput credits : Int}

theorem price_of_ok (priced : usageToCredits rates inputTokens outputTokens = .ok credits) :
    rates.price inputTokens outputTokens = credits := by
  rw [Rates.price, priced]

theorem usageToCredits_nonneg
    (priced : usageToCredits rates inputTokens outputTokens = .ok credits) : 0 ≤ credits := by
  simp only [usageToCredits] at priced
  split at priced
  · cases priced
    exact le_rfl
  · cases computed : rates.cost (max inputTokens 0) (max outputTokens 0) with
    | error error =>
        rw [computed] at priced
        cases priced
    | ok cost =>
        rw [computed] at priced
        cases priced
        exact (Int.zero_le_ofNat 1).trans (le_max_right cost 1)

open PyFloat in
theorem ofInt_below {value : ℚ} (nonneg : 0 ≤ inputTokens) (le : inputTokens ≤ moreInput)
    (converted : ofInt moreInput = some value) :
    ∃ less, ofInt inputTokens = some less ∧ Below (.finite less) (.finite value) := by
  have below : Below (nearest inputTokens) (nearest moreInput) :=
    nearest_below (by exact_mod_cast nonneg) (by exact_mod_cast le)
  simp only [ofInt] at converted ⊢
  split at converted
  next rounded more =>
    cases converted
    rw [more] at below
    obtain ⟨less, rounded, -, -⟩ := below value rfl
    rw [rounded] at below ⊢
    exact ⟨less, rfl, below⟩
  · cases converted

theorem ceilFloat_below {low high : PyFloat} (below : low.Below high)
    (computed : ceilFloat high = .ok credits) :
    ∃ less, ceilFloat low = .ok less ∧ less ≤ credits := by
  cases high with
  | nan => cases computed
  | infinite negative => cases computed
  | finite value =>
      cases computed
      obtain ⟨less, rfl, -, less_le⟩ := below value rfl
      exact ⟨⌈less⌉, rfl, Int.ceil_mono less_le⟩

/-- More usage never costs less, as long as no rate is negative. -/
theorem cost_mono (nonneg : rates.Nonneg) (input_nonneg : 0 ≤ inputTokens)
    (output_nonneg : 0 ≤ outputTokens) (input_le : inputTokens ≤ moreInput)
    (output_le : outputTokens ≤ moreOutput)
    (priced : rates.cost moreInput moreOutput = .ok credits) :
    ∃ less, rates.cost inputTokens outputTokens = .ok less ∧ less ≤ credits := by
  cases rates with
  | floats inputRate outputRate =>
      obtain ⟨⟨inputRate, rfl, input_rate⟩, outputRate, rfl, output_rate⟩ := nonneg
      simp only [Rates.cost] at priced ⊢
      split at priced
      next input output input_read output_read =>
        obtain ⟨lessInput, less_read, input_below⟩ := ofInt_below input_nonneg input_le input_read
        obtain ⟨lessOutput, other_read, output_below⟩ :=
          ofInt_below output_nonneg output_le output_read
        rw [less_read, other_read]
        have below := ((input_below.divBy (by norm_num : (0 : ℚ) < 1000)).mul input_rate).add
          ((output_below.divBy (by norm_num : (0 : ℚ) < 1000)).mul output_rate)
        exact ceilFloat_below below priced
      · cases priced
  | exact inputRate outputRate =>
      obtain ⟨input_rate, output_rate⟩ := nonneg
      cases priced
      refine ⟨_, rfl, Int.ceil_mono ?_⟩
      have input_cast : (inputTokens : ℚ) ≤ moreInput := by exact_mod_cast input_le
      have output_cast : (outputTokens : ℚ) ≤ moreOutput := by exact_mod_cast output_le
      gcongr

theorem usageToCredits_mono (nonneg : rates.Nonneg) (input_le : inputTokens ≤ moreInput)
    (output_le : outputTokens ≤ moreOutput)
    (priced : usageToCredits rates moreInput moreOutput = .ok credits) :
    ∃ less, usageToCredits rates inputTokens outputTokens = .ok less ∧ less ≤ credits := by
  have credits_nonneg := usageToCredits_nonneg priced
  by_cases idle : max inputTokens 0 = 0 ∧ max outputTokens 0 = 0
  · exact ⟨0, by simp only [usageToCredits, idle, and_self, if_true], credits_nonneg⟩
  · have busy : ¬(max moreInput 0 = 0 ∧ max moreOutput 0 = 0) := by omega
    simp only [usageToCredits, idle, busy, if_false] at priced ⊢
    cases computed : rates.cost (max moreInput 0) (max moreOutput 0) with
    | error error =>
        rw [computed] at priced
        cases priced
    | ok cost =>
        rw [computed] at priced
        cases priced
        obtain ⟨less, computed, less_le⟩ := cost_mono nonneg (le_max_right _ _) (le_max_right _ _)
          (max_le_max_right 0 input_le) (max_le_max_right 0 output_le) computed
        rw [computed]
        exact ⟨_, rfl, max_le_max_right 1 less_le⟩

end Price

end Hermes.AgentProxy
