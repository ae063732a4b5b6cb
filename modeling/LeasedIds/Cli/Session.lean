import LeasedIds.Cli.Config
import LeasedIds.Cli.LogFilter
import LeasedIds.Simulation.Operations

namespace LeasedIds.Cli

open Simulation

structure Record where
  parts : Parts
  unixMs : Nat
deriving DecidableEq, Repr

namespace Record

def ofId (encoder : Encoder) (id : Id) : Record where
  parts := encoder.decompose id
  unixMs := encoder.toTime id / Time.millisecond

def text (record : Record) : String :=
  record.parts.id.text ++ "\ttime=" ++ toString record.parts.time.toNat ++ " machine_id=" ++
    toString record.parts.machineId.toNat ++ " sequence=" ++ toString record.parts.sequence.toNat ++ " unix_ms=" ++
    toString record.unixMs

/-- The members are in alphabetical order; the time is capped at 64 bits. -/
def jsonText (record : Record) : String :=
  "\x7b\"id\":" ++ record.parts.id.jsonText ++ ",\"machine_id\":" ++ toString record.parts.machineId.toNat ++
    ",\"sequence\":" ++ toString record.parts.sequence.toNat ++ ",\"time\":" ++ toString record.parts.time.toNat ++
    ",\"unix_ms\":" ++ toString (min record.unixMs (2 ^ 64 - 1)) ++ "\x7d"

def line (record : Record) (json : Bool) : String := if json then record.jsonText else record.text

end Record

inductive Failure where
  | config (error : ConfigError)
  | generator (error : Error)
  | zeroPeriod
  | crash
deriving DecidableEq, Repr

def Failure.message : Failure → String
  | config error => error.message
  | generator error => error.message
  | zeroPeriod => "--every-ms must be greater than 0"
  | crash => ""

def crashCode : Nat := 101

def Failure.exitCode : Failure → Nat
  | crash => crashCode
  | _ => 1

def hasTopBit (raw : UInt64) : Bool := Id.topBit ≤ raw

inductive Notice where
  | topBitCleared
  | minted
  | storeCalls
  | signalReceived
deriving DecidableEq, Repr

def Notice.line : Notice → LogLine
  | topBitCleared => ⟨"leaseflake_cli", .warn, ["message", "raw"]⟩
  | minted => ⟨"leaseflake_cli", .info, ["message", "id", "time", "sequence", "renewal_failures"]⟩
  | storeCalls => ⟨"leaseflake_cli", .info, ["message", "acquire", "renew", "release"]⟩
  | signalReceived => ⟨"leaseflake_cli", .info, ["message"]⟩

def warned (filter : LogFilter) (ids : List UInt64) : List UInt64 :=
  if filter.lets Notice.topBitCleared.line then ids.filter hasTopBit else []

def decompose (config : Config) (ids : List UInt64) : Except Failure (List Record) :=
  match Encoder.create 0 config.epoch config.timeUnit config.layout with
  | .ok encoder => .ok (ids.map fun raw => .ofId encoder (.ofRaw raw))
  | .error error => .error (.generator error)

def decomposedLines (config : Config) (ids : List UInt64) (json : Bool) : Except Failure (List String) :=
  (decompose config ids).map fun records => records.map (·.line json)

def openWorld (config : Config) (wall : Nat) : World :=
  { wall, stores := (Stores.addStore {} config.layout.maxMachineId).addClient 0 }

def start (config : Config) (wall : Nat) : World × Except Failure Nat :=
  match (openWorld config wall).build (some 0) config.settings .wall with
  | (world, .created holder, _) => (world, .ok holder)
  | (world, .refused error, _) => (world, .error (.generator error))
  | (world, _, _) => (world, .error .crash)

def mint (world : World) (holder count : Nat) : World × List Record × Option Error :=
  match world.encoder? holder with
  | none => (world, [], none)
  | some encoder =>
    let (world, minted) := world.mintOnWall holder count
    (world, minted.ids.map (.ofId encoder), minted.failure?)

def finish (world : World) (holder : Nat) : World × Option Failure :=
  match world.stop holder with
  | (world, .finished failure?) => (world, failure?.map .generator)
  | (world, .crashed) => (world, some .crash)

structure Report where
  records : List Record := []
  failure? : Option Failure := none
  counts? : Option Lease.CallCounts := none
deriving DecidableEq, Repr

def report (world : World) (holder : Nat) (records : List Record) (failure? : Option Error) : Report :=
  let (world, stopFailure?) := finish world holder
  { records, failure? := failure?.map .generator <|> stopFailure?, counts? := some (world.stores.counts 0) }

def generate (config : Config) (wall count : Nat) : Report :=
  match start config wall with
  | (_, .error failure) => { failure? := some failure }
  | (world, .ok holder) =>
    let (world, records, failure?) := mint world holder count
    report world holder records failure?

def passPeriod (world : World) (period : Nat) : World :=
  let later := world.pause.1.sleep period
  { later with wall := later.wall + period }

def holdTicks (world : World) (holder period : Nat) : Nat → World × List Record × Option Error
  | 0 => (world, [], none)
  | ticks + 1 =>
    match mint world holder 1 with
    | (world, records, some error) => (world, records, some error)
    | (world, records, none) =>
      if ticks = 0 then (world, records, none)
      else
        let (world, later, failure?) := holdTicks (passPeriod world period) holder period ticks
        (world, records ++ later, failure?)

def hold (config : Config) (wall period ticks : Nat) : Report :=
  if period = 0 then { failure? := some .zeroPeriod }
  else match start config wall with
    | (_, .error failure) => { failure? := some failure }
    | (world, .ok holder) =>
      let (world, records, failure?) := holdTicks world holder period ticks
      report world holder records failure?

inductive Signal where
  | interrupt
  | terminate
deriving DecidableEq, Repr

def Signal.message : Signal → String
  | interrupt => "Received Ctrl+C signal"
  | terminate => "Received SIGTERM signal"

def countsText (counts : Lease.CallCounts) : String :=
  s!"acquire={counts.acquire} renew={counts.renew} release={counts.release}"

def loggedCounts? (filter : LogFilter) (report : Report) : Option String :=
  if filter.lets Notice.storeCalls.line then report.counts?.map countsText else none

def loggedSignal? (filter : LogFilter) (signal : Signal) (report : Report) : Option String :=
  if filter.lets Notice.signalReceived.line && report.failure?.isNone then some signal.message else none

def versionText : String := "leaseflake-cli 0.1.0"

end LeasedIds.Cli
