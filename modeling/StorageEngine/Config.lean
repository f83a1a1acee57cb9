import StorageEngine.Json.Record

/-!
# Pool configuration

How many pages a pool keeps, how long its pages are, and how long a waiting lock request
sleeps before it looks again.
-/

namespace StorageEngine

/-! ## Durations -/

/-- A length of time: whole seconds and the nanoseconds over. -/
structure Duration where
  seconds : UInt64
  nanos : UInt32
  deriving DecidableEq

namespace Duration

/-- The number of nanoseconds in a second. -/
def nanosPerSecond : Nat := 1000000000

/-- The length of time of a number of milliseconds. -/
def ofMillis (millis : Nat) : Duration :=
  ⟨UInt64.ofNat (millis / 1000), UInt32.ofNat (millis % 1000 * 1000000)⟩

/-- Seconds and nanoseconds, whole seconds among the nanoseconds carried over, if there are
not too many. -/
def carry? (seconds nanos : Nat) : Option Duration :=
  let seconds := seconds + nanos / nanosPerSecond
  if seconds < UInt64.size then
    some ⟨UInt64.ofNat seconds, UInt32.ofNat (nanos % nanosPerSecond)⟩
  else none

/-- The JSON text of a length of time. -/
def toJson (duration : Duration) : String :=
  Json.renderRecord
    [("secs", toString duration.seconds.toNat), ("nanos", toString duration.nanos.toNat)]

/-- The length of time that a JSON value spells. -/
def ofJson? (value : Json) : Option Duration := do
  let [seconds, nanos] ← Json.fields? ["secs", "nanos"] true value | none
  carry? (← seconds.natural? UInt64.size) (← nanos.natural? UInt32.size)

end Duration

/-! ## Configurations -/

/-- The page size of a pool that is given none. -/
def defaultPageSize : Nat := 4096

/-- The capacity of a pool that is given none. -/
def defaultPoolSize : Nat := 50

/-- The configuration of a pool. -/
structure PoolConfig where
  /-- The number of pages that the pool keeps at most. -/
  poolSize : Nat := defaultPoolSize
  /-- The size of every page; pages of another size are refused. -/
  pageSize : Nat := defaultPageSize
  /-- The longest time that a waiting lock request sleeps before it looks again. -/
  lockWait : Duration := .ofMillis 20
  deriving DecidableEq

namespace PoolConfig

/-- The JSON text of a configuration. -/
def toJson (config : PoolConfig) : String :=
  Json.renderRecord
    [ ("pool_size", toString config.poolSize),
      ("page_size", toString config.pageSize),
      ("lock_wait_interval", config.lockWait.toJson) ]

/-- The configuration that a JSON text spells. -/
def ofJson? (text : String) : Option PoolConfig := do
  let [poolSize, pageSize, lockWait] ←
    Json.fields? ["pool_size", "page_size", "lock_wait_interval"] false (← Json.parse? text)
    | none
  return ⟨← poolSize.natural? UInt64.size, ← pageSize.natural? UInt64.size,
    ← Duration.ofJson? lockWait⟩

end PoolConfig

end StorageEngine
