import LeasedIds.Error

namespace LeasedIds.Lease

structure Terms where
  ttl : Nat := 30 * Time.second
  renewalInterval : Nat := 10 * Time.second
  storeTimeout : Nat := 5 * Time.second
deriving DecidableEq, Repr

namespace Terms

structure Valid (terms : Terms) : Prop where
  renewalInterval_pos : 0 < terms.renewalInterval
  renewalInterval_lt : terms.renewalInterval < terms.ttl
  storeTimeout_pos : 0 < terms.storeTimeout

def fault? (terms : Terms) : Option Error :=
  if terms.ttl = 0 then some .zeroTtl
  else if terms.renewalInterval = 0 then some .zeroRenewalInterval
  else if terms.ttl ≤ terms.renewalInterval then some (.renewalNotBelowTtl terms.renewalInterval terms.ttl)
  else if terms.storeTimeout = 0 then some .zeroStoreTimeout
  else none

theorem fault?_eq_none_iff {terms : Terms} : terms.fault? = none ↔ terms.Valid := by
  constructor
  · intro none
    unfold fault? at none
    constructor <;> grind
  · rintro ⟨_, _, _⟩
    unfold fault?
    grind

instance (terms : Terms) : Decidable terms.Valid := decidable_of_iff _ fault?_eq_none_iff

def debugText (terms : Terms) : String :=
  "LeaseTerms \x7b ttl: " ++ Time.spanText terms.ttl ++ ", renewal_interval: " ++
    Time.spanText terms.renewalInterval ++ ", store_timeout: " ++ Time.spanText terms.storeTimeout ++ " \x7d"

end Terms
end LeasedIds.Lease
