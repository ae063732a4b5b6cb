import LeasedIds.Cli.EnvFile
import LeasedIds.Cli.Session
import LeasedIds.Encoder.Pauses
import LeasedIds.SystemClock

namespace LeasedIds.Cli

open Simulation

def processEnvironment (file? : Option String) : IO Environment := do
  let names := LogFilter.variableName :: Setting.all.map Setting.variableName ++ (file?.map EnvFile.mentionedNames).getD []
  let pairs ← names.mapM fun name => return (name, ← IO.getEnv name)
  return fun name => (pairs.lookup name).join

def readEnvFile : IO (Option String) := do
  try
    return some (← IO.FS.readFile ".env")
  catch _ => return none

def logLine (filter : LogFilter) (line : LogLine) (message : String) : IO Unit := do
  if filter.lets line then (← IO.getStderr).putStrLn (line.level.text ++ " " ++ message)

def logEvent (filter : LogFilter) (event : Lease.Event) : IO Unit :=
  logLine filter ⟨"leaseflake::lease::manager", event.level, "message" :: event.fields.map Prod.fst⟩
    (event.message ++ String.join (event.fields.map fun (key, text) => " " ++ key ++ "=" ++ text))

def logWorld (filter : LogFilter) (world : World) : IO World := do
  let (world, entries) := world.pause
  (eventsLogged entries).forM (logEvent filter)
  return world

def sleepFor (span : Nat) : IO Unit :=
  IO.sleep (min (Time.ceilMillis span / Time.millisecond) (2 ^ 32 - 1)).toUInt32

partial def awaitNext (clock : AnchoredClock) (encoder : Encoder) (position : Encoder.Position) (next : Nat) :
    IO (Except Error Id × Encoder.Position) := do
  let now ← clock.now
  match encoder.resume next now with
  | .minted id minted => return (.ok id, minted)
  | .failed error => return (.error error, position)
  | .waiting _ =>
    match encoder.pauseAt next now with
    | .spin => pure ()
    | .sleep span => sleepFor span
    awaitNext clock encoder position next

def mintNext (clock : AnchoredClock) (encoder : Encoder) (position : Encoder.Position) :
    IO (Except Error Id × Encoder.Position) := do
  match encoder.start position (← clock.now) with
  | .minted id minted => return (.ok id, minted)
  | .failed error => return (.error error, position)
  | .waiting next => awaitNext clock encoder position next

def printRecords (clock : AnchoredClock) (encoder : Encoder) (json : Bool) :
    Encoder.Position → Nat → IO (Option Error)
  | _, 0 => return none
  | position, count + 1 => do
    match ← mintNext clock encoder position with
    | (.error error, _) => return some error
    | (.ok id, position) =>
      IO.println ((Record.ofId encoder id).line json)
      printRecords clock encoder json position count

def catchUp (filter : LogFilter) (clock : AnchoredClock) (world : World) (since : Nat) : IO (World × Nat) := do
  let now ← clock.now
  return (← logWorld filter (world.sleep (now - since)), now)

partial def holdLoop (filter : LogFilter) (clock : AnchoredClock) (encoder : Encoder) (period : Nat) (world : World)
    (holder since : Nat) (position : Encoder.Position) : IO (World × Option Error) := do
  match ← mintNext clock encoder position with
  | (.error error, _) => return (world, some error)
  | (.ok id, position) =>
    let parts := encoder.decompose id
    let failures := ((world.holder? holder).map (·.failures)).getD 0
    logLine filter Notice.minted.line s!"Minted id={id.text} time={parts.time} sequence={parts.sequence} renewal_failures={failures}"
    sleepFor period
    let (world, since) ← catchUp filter clock world since
    holdLoop filter clock encoder period world holder since position

def withLease (filter : LogFilter) (config : Config) (use : AnchoredClock → World → Nat → Encoder → IO (World × Option Error)) :
    IO (Option Failure) := do
  let clock ← AnchoredClock.create
  match start config (← clock.now) with
  | (_, .error failure) => return some failure
  | (world, .ok holder) =>
    let world ← logWorld filter world
    match world.encoder? holder with
    | none => return some .crash
    | some encoder =>
      let (world, failure?) ← use clock world holder encoder
      let (world, stopFailure?) := finish world holder
      let _ ← logWorld filter world
      return failure?.map .generator <|> stopFailure?

def runHold (filter : LogFilter) (config : Config) (period : Nat) : IO (Option Failure) := do
  if period = 0 then return some .zeroPeriod
  withLease filter config fun clock world holder encoder => do
    holdLoop filter clock encoder period world holder (← clock.now) encoder.initial

def runGenerate (filter : LogFilter) (config : Config) (count : Nat) (json : Bool) : IO (Option Failure) :=
  withLease filter config fun clock world _ encoder => do
    let since ← clock.now
    let failure? ← printRecords clock encoder json encoder.initial count
    return ((← catchUp filter clock world since).1, failure?)

def runDecompose (filter : LogFilter) (config : Config) (ids : List UInt64) (json : Bool) : IO (Option Failure) := do
  match decomposedLines config ids json with
  | .error failure => return some failure
  | .ok lines =>
    for (raw, line) in ids.zip lines do
      if hasTopBit raw then
        logLine filter Notice.topBitCleared.line s!"sign bit set, decomposing the low 63 bits raw={raw}"
      IO.println line
    return none

def run (filter : LogFilter) (invocation : Invocation) : IO (Option Failure) := do
  match Config.ofOptions invocation.options with
  | .error error => return some (.config error)
  | .ok config =>
    match invocation.command with
    | .generate count json => runGenerate filter config count.toNat json
    | .decompose ids json => runDecompose filter config ids json
    | .hold everyMs => runHold filter config (Time.ofMillis everyMs.toNat)

end LeasedIds.Cli

open LeasedIds.Cli in
def main (arguments : List String) : IO UInt32 := do
  let file? ← readEnvFile
  let given ← processEnvironment file?
  match (file?.map (EnvFile.load given)).getD (some given) with
  | none =>
    IO.eprintln "failed to set an environment variable"
    return crashCode.toUInt32
  | some environment =>
    match readArguments environment arguments with
    | .error .help => IO.println helpText; return 0
    | .error .version => IO.println versionText; return 0
    | .error usage =>
      IO.eprintln ("error: " ++ usage.message)
      return usage.exitCode.toUInt32
    | .ok invocation =>
      match ← run (.ofEnvironment environment) invocation with
      | none => return 0
      | some failure =>
        IO.eprintln ("Error: " ++ failure.message)
        return failure.exitCode.toUInt32
