import Hermes.Json

/-!
# Product tables

The token packs and subscription tiers are configured as JSON documents.  Only positive integers
survive the reading, and a document which is no object gives an empty table.
-/

namespace Hermes.Billing

/-- A table from product ids to amounts of credits. -/
abbrev ProductTokens := List (String × Int)

/-- One entry of a product document; `bool` is excluded along with everything else which is no
positive integer. -/
def productAmount : Json → Option Int
  | .int amount => if amount ≤ 0 then none else some amount
  | _ => none

/-- `token_products`, `adapty_product_tokens` and `cloudpayments_product_tokens`; `none` is a
document which does not decode. -/
def productTokens : Option Json → ProductTokens
  | some (.obj fields) =>
      fields.filterMap fun field => (productAmount field.2).map fun amount => (field.1, amount)
  | _ => []

/-- `dict.get` on a product table. -/
def ProductTokens.amount? (products : ProductTokens) (productId : String) : Option Int :=
  (products.find? fun entry => entry.1 == productId).map (·.2)

theorem productAmount_pos {value : Json} {amount : Int} (kept : productAmount value = some amount) :
    0 < amount := by
  cases value with
  | int number =>
      simp only [productAmount] at kept
      split at kept
      · cases kept
      · cases kept
        omega
  | _ => cases kept

theorem productTokens_pos {document : Option Json} {productId : String} {amount : Int}
    (listed : (productTokens document).amount? productId = some amount) : 0 < amount := by
  obtain ⟨⟨key, value⟩, found, rfl⟩ := Option.map_eq_some_iff.mp listed
  have present := List.mem_of_find?_eq_some found
  unfold productTokens at present
  split at present
  · obtain ⟨field, _, kept⟩ := List.mem_filterMap.mp present
    obtain ⟨number, positive, same⟩ := Option.map_eq_some_iff.mp kept
    cases same
    exact productAmount_pos positive
  · cases present

end Hermes.Billing
