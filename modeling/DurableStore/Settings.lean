import DurableStore.Number.Written
import DurableStore.Text.Capital
import DurableStore.Wire.Limits

/-!
# Settings

The defaults of the server, each of which an environment variable can replace,
and the level below which log lines are not written.
-/

namespace DurableStore

/-- Where the server listens, where its log is, and how it writes log lines. -/
structure Settings where
  host : String
  port : Int
  logPath : String
  /-- Seconds between flushes of the log. -/
  flushInterval : Binary64
  debug : Bool
  logLevel : String
  deriving DecidableEq, Repr

/-- The environment: names with their values. -/
abbrev Environment := List (String × String)

namespace Environment

/-- The value of a variable, or a default. -/
def valueOr (environment : Environment) (name fallback : String) : String :=
  (environment.lookup name).getD fallback

end Environment

namespace Settings

/-- The most octets that one read takes from a connection. -/
def readSize : Nat := 4096

/-- The variables that replace defaults. -/
def variableNames : List String :=
  ["REDIS_LITE_HOST", "REDIS_LITE_PORT", "REDIS_LITE_AOF_PATH", "REDIS_LITE_FLUSH_INTERVAL",
    "REDIS_LITE_DEBUG", "REDIS_LITE_LOG_LEVEL"]

/-- The settings under an environment.  The port is examined before the flush
interval. -/
def ofEnvironment (environment : Environment) : Except NumberError Settings := do
  let port ← Written.integer (environment.valueOr "REDIS_LITE_PORT" "6379")
  let interval ← Written.double (environment.valueOr "REDIS_LITE_FLUSH_INTERVAL" "1.0")
  return {
    host := environment.valueOr "REDIS_LITE_HOST" "0.0.0.0"
    port := port
    logPath := environment.valueOr "REDIS_LITE_AOF_PATH" "/tmp/redis-lite.aof"
    flushInterval := interval
    debug :=
      (environment.valueOr "REDIS_LITE_DEBUG" "false").toList.map Char.toLower == "true".toList
    logLevel := environment.valueOr "REDIS_LITE_LOG_LEVEL" "INFO" }

end Settings

/-! ## Log levels -/

namespace LogLevel

/-- The layout of a log line. -/
def lineFormat : String := "%(asctime)s - %(name)s - %(levelname)s - %(message)s"

/-- The level of debugging lines. -/
def debug : Nat := 10

/-- The level of informative lines. -/
def info : Nat := 20

/-- The levels by name. -/
def table : List (String × Nat) :=
  [("NOTSET", 0), ("DEBUG", debug), ("INFO", info), ("WARN", 30), ("WARNING", 30),
    ("ERROR", 40), ("CRITICAL", 50), ("FATAL", 50)]

/-- The level that is in force: that of debugging lines if debugging is asked
for, else the level of the given name, and that of informative lines if there
is no such level. -/
def inForce (name : String) (debugging : Bool) : Nat :=
  if debugging then debug
  else (Text.lookupWord? table (name.toList.map .char)).getD info

end LogLevel

end DurableStore
