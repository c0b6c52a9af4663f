import DurableStore.Command
import DurableStore.Log.Error
import DurableStore.Number.Binary64

/-!
# Notices

The lines that the server writes about itself: what it found in its log, whom
it serves, and what went wrong.
-/

namespace DurableStore

/-- How serious a notice is. -/
inductive Severity
  | info
  | warning
  | error
  deriving DecidableEq, Repr

namespace Severity

/-- The name of a severity on a line. -/
def name : Severity → String
  | .info => "INFO"
  | .warning => "WARNING"
  | .error => "ERROR"

/-- The level of the lines of a severity. -/
def level : Severity → Nat
  | .info => 20
  | .warning => 30
  | .error => 40

end Severity

/-- Why a connection was given up. -/
inductive ClientFailure
  /-- Reading from the connection failed in an unforeseen way. -/
  | crash (reason : String)
  /-- A reply had no written form. -/
  | reply (error : EncodeError)
  /-- The log failed in an unforeseen way. -/
  | log (error : AppendError)
  deriving DecidableEq, Repr

namespace ClientFailure

/-- The wording of a failure. -/
def message : ClientFailure → String
  | .crash reason => reason
  | .reply error => error.message
  | .log error => error.message

end ClientFailure

/-- What the server reports. -/
inductive Notice
  /-- A record that is no request was skipped. -/
  | skippedRecord (offset : Nat) (error : CommandError)
  /-- A record with an unknown command was skipped. -/
  | skippedCommand (name : Bytes) (offset : Nat)
  /-- The last record of the log is incomplete. -/
  | truncatedRecord (path : String) (offset : Nat)
  /-- The log has been replayed. -/
  | replayed (path : String) (count : Nat)
  /-- The incomplete record at the end of the log is dropped. -/
  | discarding (path : String) (count : Nat)
  /-- The log has been closed. -/
  | closedLog (path : String)
  /-- A flush in the background failed. -/
  | flushFailed (error : LogError)
  /-- A write could not be logged. -/
  | appendFailed (error : AppendError)
  /-- The server listens. -/
  | serving (host : String) (port : Int)
  /-- The server closes its connections. -/
  | closingConnections (count : Nat)
  /-- A connection was given up. -/
  | clientFailed (peer : String) (failure : ClientFailure)
  /-- The program cannot open its log. -/
  | openingFailed (error : LogError)
  /-- The program starts. -/
  | starting
  /-- The host the program will listen on. -/
  | host (host : String)
  /-- The port the program will listen on. -/
  | port (port : Int)
  /-- The log the program uses. -/
  | log (path : String) (count : Nat)
  /-- The interval between flushes, in seconds. -/
  | flushInterval (interval : Binary64)
  /-- The program was sent a signal. -/
  | signalled (name : String)
  /-- The program was interrupted from the keyboard. -/
  | interrupted
  /-- The program could not listen. -/
  | cannotListen (reason : String)
  /-- The log could not be closed in order. -/
  | closingFailed (error : LogError)
  /-- The program ends. -/
  | shutDown
  deriving DecidableEq, Repr

namespace Notice

/-- How serious a notice is. -/
def severity : Notice → Severity
  | .skippedRecord _ _ | .skippedCommand _ _ | .truncatedRecord _ _ | .discarding _ _ => .warning
  | .flushFailed _ | .appendFailed _ | .clientFailed _ _ | .openingFailed _ | .cannotListen _
  | .closingFailed _ => .error
  | _ => .info

/-- The wording of a notice. -/
def message : Notice → String
  | .skippedRecord offset error =>
      s!"Skipping non-command record at offset {offset}: " ++ error.message
  | .skippedCommand name offset =>
      "Skipping unknown command " ++ Text.quote name ++ s!" at offset {offset}"
  | .truncatedRecord path offset =>
      s!"Truncated record at offset {offset} in " ++ path ++ ", ending replay"
  | .replayed path count => s!"Replayed {count} commands from " ++ path
  | .discarding path count => s!"Discarding {count} bytes of partial record at end of " ++ path
  | .closedLog path => "Closed AOF " ++ path
  | .flushFailed error => "Unable to flush AOF to disk: " ++ error.message
  | .appendFailed error => "AOF write failed: " ++ error.message
  | .serving name number => "Serving on (" ++ Text.quoteString name ++ s!", {number})"
  | .closingConnections count => s!"Closing {count} client connection(s)"
  | .clientFailed peer failure => "Error handling client " ++ peer ++ ": " ++ failure.message
  | .openingFailed error => "Failed to initialize AOF: " ++ error.message
  | .starting => "Starting redis-lite server"
  | .host name => "  Host: " ++ name
  | .port number => s!"  Port: {number}"
  | .log path count => "  AOF: " ++ path ++ s!" ({count} commands replayed)"
  | .flushInterval seconds => "  Flush interval: " ++ seconds.text ++ "s"
  | .signalled name => "Received signal " ++ name ++ ", initiating shutdown..."
  | .interrupted => "Keyboard interrupt received"
  | .cannotListen reason => "Server error: " ++ reason
  | .closingFailed error => "Failed to close AOF: " ++ error.message
  | .shutDown => "Server shutdown complete"

end Notice

end DurableStore
