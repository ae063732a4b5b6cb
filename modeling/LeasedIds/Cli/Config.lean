import LeasedIds.Cli.Arguments
import LeasedIds.Generator.Settings

namespace LeasedIds.Cli

structure Config where
  epoch : Nat
  timeUnit : Nat
  terms : Lease.Terms
  layout : Layout
deriving DecidableEq, Repr

inductive ConfigError where
  | zeroTimeUnit
  | zeroLeaseSpan
  | renewalNotBelowTtl (intervalMs ttlMs : Nat)
  | startOutOfRange (startMs : Nat)
  | layout (error : Error)
deriving DecidableEq, Repr

namespace ConfigError

def message : ConfigError → String
  | zeroTimeUnit => "LEASEFLAKE_TIME_UNIT_MS must be greater than 0"
  | zeroLeaseSpan =>
    "LEASEFLAKE_LEASE_TTL_MS, LEASEFLAKE_RENEWAL_INTERVAL_MS and LEASEFLAKE_STORE_TIMEOUT_MS must be greater than 0"
  | renewalNotBelowTtl intervalMs ttlMs =>
    s!"LEASEFLAKE_RENEWAL_INTERVAL_MS ({intervalMs}) must be less than LEASEFLAKE_LEASE_TTL_MS ({ttlMs})"
  | startOutOfRange startMs => s!"LEASEFLAKE_START_TIME_MS ({startMs}) is out of range"
  | layout error => error.message

end ConfigError

namespace Config

def ofOptions (options : Options) : Except ConfigError Config :=
  if options.timeUnitMs = 0 then .error .zeroTimeUnit
  else if options.leaseTtlMs = 0 ∨ options.renewalIntervalMs = 0 ∨ options.storeTimeoutMs = 0 then
    .error .zeroLeaseSpan
  else if options.leaseTtlMs ≤ options.renewalIntervalMs then
    .error (.renewalNotBelowTtl options.renewalIntervalMs.toNat options.leaseTtlMs.toNat)
  else if Time.instantLimit ≤ Time.ofMillis options.startTimeMs.toNat then
    .error (.startOutOfRange options.startTimeMs.toNat)
  else match Layout.ofWidths options.sequenceBits.toNat options.machineIdBits.toNat with
    | .error error => .error (.layout error)
    | .ok layout =>
      .ok {
        epoch := Time.ofMillis options.startTimeMs.toNat
        timeUnit := Time.ofMillis options.timeUnitMs.toNat
        terms := {
          ttl := Time.ofMillis options.leaseTtlMs.toNat
          renewalInterval := Time.ofMillis options.renewalIntervalMs.toNat
          storeTimeout := Time.ofMillis options.storeTimeoutMs.toNat }
        layout }

def settings (config : Config) : Generator.Settings where
  hasStore := true
  startTime := config.epoch
  timeUnit := config.timeUnit
  terms := config.terms
  sequenceBits := config.layout.sequenceBits
  machineBits := config.layout.machineBits

end Config
end LeasedIds.Cli
