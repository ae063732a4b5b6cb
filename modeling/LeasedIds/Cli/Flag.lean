import LeasedIds.Basic

namespace LeasedIds.Cli

inductive Setting where
  | startTime
  | timeUnit
  | leaseTtl
  | renewalInterval
  | storeTimeout
  | sequenceBits
  | machineIdBits
deriving DecidableEq, Repr

namespace Setting

def all : List Setting :=
  [startTime, timeUnit, leaseTtl, renewalInterval, storeTimeout, sequenceBits, machineIdBits]

def flagName : Setting → String
  | startTime => "start-time-ms"
  | timeUnit => "time-unit-ms"
  | leaseTtl => "lease-ttl-ms"
  | renewalInterval => "renewal-interval-ms"
  | storeTimeout => "store-timeout-ms"
  | sequenceBits => "sequence-bits"
  | machineIdBits => "machine-id-bits"

def variableName : Setting → String
  | startTime => "LEASEFLAKE_START_TIME_MS"
  | timeUnit => "LEASEFLAKE_TIME_UNIT_MS"
  | leaseTtl => "LEASEFLAKE_LEASE_TTL_MS"
  | renewalInterval => "LEASEFLAKE_RENEWAL_INTERVAL_MS"
  | storeTimeout => "LEASEFLAKE_STORE_TIMEOUT_MS"
  | sequenceBits => "LEASEFLAKE_SEQUENCE_BITS"
  | machineIdBits => "LEASEFLAKE_MACHINE_ID_BITS"

def default : Setting → Nat
  | startTime => 1735689600000
  | timeUnit => 10
  | leaseTtl => 30000
  | renewalInterval => 10000
  | storeTimeout => 5000
  | sequenceBits => 8
  | machineIdBits => 16

end Setting

inductive Flag where
  | setting (shared : Setting)
  | count
  | everyMs
  | json
  | help
  | version
deriving DecidableEq, Repr

inductive Level where
  | root
  | generate
  | decompose
  | hold
deriving DecidableEq, Repr

namespace Flag

def name : Flag → String
  | setting shared => shared.flagName
  | count => "count"
  | everyMs => "every-ms"
  | json => "json"
  | help => "help"
  | version => "version"

def letter? : Flag → Option Char
  | count => some 'n'
  | help => some 'h'
  | version => some 'V'
  | _ => none

def takesValue : Flag → Bool
  | setting _ | count | everyMs => true
  | json | help | version => false

end Flag

namespace Level

def flags : Level → List Flag
  | root => Setting.all.map .setting ++ [.help, .version]
  | generate => [.count, .json] ++ Setting.all.map .setting ++ [.help]
  | decompose => [.json] ++ Setting.all.map .setting ++ [.help]
  | hold => [.everyMs] ++ Setting.all.map .setting ++ [.help]

def flagNamed? (level : Level) (name : List Char) : Option Flag := level.flags.find? (·.name.toList = name)

def flagLettered? (level : Level) (letter : Char) : Option Flag := level.flags.find? (·.letter? = some letter)

end Level

def helpText : String :=
  let shared := Setting.all.map fun setting =>
    "  --" ++ setting.flagName ++ " N  [" ++ setting.variableName ++ ", default " ++ toString setting.default ++ "]"
  "\n".intercalate (
    ["Mint and inspect time-ordered IDs backed by a leased machine ID", "",
      "generate [-n N | --count N] [--json]", "decompose [--json] ID...", "hold [--every-ms N]", "",
      "Settings of every command:"] ++ shared)

def isDigit (char : Char) : Bool := '0' ≤ char && char ≤ '9'

def readDigits (digits : List Char) : Option Nat :=
  if !digits.isEmpty && digits.all isDigit then
    some (digits.foldl (fun value digit => value * 10 + (digit.toNat - '0'.toNat)) 0)
  else none

def readNatural (limit : Nat) (text : List Char) : Option Nat :=
  (match text with
    | '+' :: digits => readDigits digits
    | digits => readDigits digits).filter (· < limit)

def readByte (text : List Char) : Option Nat :=
  match text with
  | '-' :: digits => (readDigits digits).filter (· = 0)
  | digits => readNatural 256 digits

def Setting.read : Setting → List Char → Option Nat
  | sequenceBits | machineIdBits => readByte
  | _ => readNatural (2 ^ 64)

def Flag.read : Flag → List Char → Option Nat
  | setting shared => shared.read
  | _ => readNatural (2 ^ 64)

end LeasedIds.Cli
