import LeasedIds.Time.Text

namespace LeasedIds

inductive StoreError where
  | exhausted (max : Nat)
  | notLeased (machineId : Nat)
  | poisoned
  | refused (text : String)
  | timedOut (limit : Nat)
deriving DecidableEq, Repr

namespace StoreError

def message : StoreError → String
  | exhausted max => s!"no available machine ID in 0-{max}"
  | notLeased machineId => s!"machine ID {machineId} is not leased by this owner"
  | poisoned => "lease table poisoned"
  | refused text => text
  | timedOut limit => "store call timed out after " ++ Time.spanText limit

def isTimeout : StoreError → Bool
  | timedOut _ => true
  | _ => false

end StoreError

inductive Error where
  | missingStore
  | startNotPast
  | badTimeUnit (unit : Nat)
  | zeroTtl
  | zeroRenewalInterval
  | renewalNotBelowTtl (interval ttl : Nat)
  | zeroStoreTimeout
  | badWidths (sequenceBits machineBits : Nat)
  | acquireFailed (cause : StoreError)
  | machineIdTooLarge (machineId max : Nat)
  | releaseFailed (machineId : Nat) (cause : StoreError)
  | clockBeforeEpoch
  | timeExhausted (elapsed max : Nat)
  | encoderPoisoned
deriving DecidableEq, Repr

namespace Error

def message : Error → String
  | missingStore => "a machine ID repository is required"
  | startNotPast => "start time must be in the past"
  | badTimeUnit unit => "time unit must be at least 1ms, got " ++ Time.spanText unit
  | zeroTtl => "lease ttl must be positive"
  | zeroRenewalInterval => "renewal interval must be positive"
  | renewalNotBelowTtl interval ttl =>
    "renewal interval " ++ Time.spanText interval ++ " must be less than lease ttl " ++ Time.spanText ttl
  | zeroStoreTimeout => "store timeout must be positive"
  | badWidths sequenceBits machineBits =>
    s!"invalid bit layout: {sequenceBits} sequence bits, {machineBits} machine ID bits"
  | acquireFailed _ => "failed to acquire machine ID"
  | machineIdTooLarge machineId max => s!"machine ID {machineId} exceeds bit space (0-{max})"
  | releaseFailed machineId _ => s!"failed to release machine ID {machineId}"
  | clockBeforeEpoch => "clock moved before the epoch"
  | timeExhausted elapsed max => s!"time field exhausted: elapsed {elapsed} exceeds {max}"
  | encoderPoisoned => "generator lock poisoned"

def cause? : Error → Option StoreError
  | acquireFailed cause => some cause
  | releaseFailed _ cause => some cause
  | _ => none

end Error
end LeasedIds
