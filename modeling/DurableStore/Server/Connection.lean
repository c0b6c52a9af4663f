import DurableStore.Server.Basic
import DurableStore.Settings

/-!
# Connections

A connection carries requests to the server and replies back.  Its handler
takes turns: each asks the stream for the next value and answers it, or ends the
connection if there is no next value.  Octets that are no value, and a stream
that ends inside a value, are answered by one last error line, since the place
of the next value is unknown.

Main definitions:

- `Server.turn`: one turn of the handler.
- `Server.serve`: all turns that the octets received so far allow.
-/

namespace DurableStore

/-- A connection, seen from the server. -/
structure Connection where
  /-- The name of the client. -/
  peer : String
  /-- The octets from the client. -/
  stream : Stream
  /-- The replies to the client in their written form, the newest first. -/
  sent : List Bytes
  isOpen : Bool
  /-- Whether the server finds out, as soon as it has sent a reply, that the
  client is gone. -/
  drainFails : Bool
  deriving DecidableEq, Repr

namespace Connection

/-- A connection on which nothing has been sent. -/
def fresh (peer : String) : Connection := ⟨peer, .empty, [], true, false⟩

/-- The connection ends. -/
def close (connection : Connection) : Connection :=
  { connection with isOpen := false }

/-- Octets arrive from the client.  Once the connection has ended they are
ignored. -/
def deliver (connection : Connection) (octets : Bytes) : Connection :=
  if connection.isOpen then { connection with stream := connection.stream.feed octets }
  else connection

/-- The client sends nothing more. -/
def finish (connection : Connection) : Connection :=
  { connection with stream := connection.stream.close }

/-- Sending a reply will reveal that the client is gone. -/
def breakDrain (connection : Connection) : Connection :=
  { connection with drainFails := true }

/-- The octets sent to the client, without the first `count` replies. -/
def outputAfter (count : Nat) (connection : Connection) : Bytes :=
  (connection.sent.take (connection.sent.length - count)).reverse.flatten

/-- The octets sent to the client. -/
def output (connection : Connection) : Bytes :=
  connection.outputAfter 0

/-- Keep no copy of the replies that have been sent. -/
def forget (connection : Connection) : Connection :=
  { connection with sent := [] }

/-- Send octets to the client. -/
def write (octets : Bytes) (connection : Connection) : Connection :=
  { connection with
    sent := octets :: connection.sent
    isOpen := connection.isOpen && !connection.drainFails }

/-- Send a value to the client.  If it has no written form the connection is
given up. -/
def reply (value : Value) (connection : Connection) : Connection × List Notice :=
  match value.encode with
  | .ok octets => (connection.write octets, [])
  | .error error => (connection.close, [.clientFailed connection.peer (.reply error)])

/-- Send the reply to a request.  After a failure that the server has not foreseen there is
none, and the connection is given up. -/
def respond (processed : Processed) (connection : Connection) : Connection × List Notice :=
  match processed.failure? with
  | none => connection.reply processed.reply
  | some error => (connection.close, [.clientFailed connection.peer (.log error)])

/-- Tell the client why no further value can be found, and end the
connection. -/
def dismiss (reason : String) (connection : Connection) : Connection × List Notice :=
  let replied := connection.reply (Reply.protocolError reason)
  (replied.1.close, replied.2)

end Connection

/-! ## Turns of a handler -/

/-- What a handler did in a turn. -/
inductive Activity
  /-- It found nothing to do. -/
  | idle
  /-- It carried out a request, to which this is the reply. -/
  | served (request reply : Value)
  /-- It ended the connection. -/
  | ended
  deriving DecidableEq, Repr

/-- What a turn of a handler leads to. -/
structure Turn where
  activity : Activity
  server : Server
  connection : Connection
  notices : List Notice
  deriving DecidableEq

/-- What several turns of a handler lead to. -/
structure Served where
  server : Server
  connection : Connection
  notices : List Notice
  deriving DecidableEq

namespace Server

/-- One turn of the handler of a connection: it answers the next request, or
ends the connection if the stream has ended or does not continue with a
value. -/
def turn (server : Server) (connection : Connection) : Turn :=
  if !connection.isOpen then ⟨.idle, server, connection, []⟩
  else
    match connection.stream.next server.limits Settings.readSize with
    | (.value request, stream) =>
        let processed := server.process request
        let replied := { connection with stream }.respond processed
        ⟨.served request processed.reply, processed.server, replied.1,
          processed.notices ++ replied.2⟩
    | (.waiting, stream) => ⟨.idle, server, { connection with stream }, []⟩
    | (.ended, stream) => ⟨.ended, server, { connection with stream }.close, []⟩
    | (.malformed error, stream) =>
        let dismissed := { connection with stream }.dismiss error.message
        ⟨.ended, server, dismissed.1, dismissed.2⟩
    | (.cutOff pending, stream) =>
        let dismissed := { connection with stream }.dismiss (Received.cutOffMessage pending)
        ⟨.ended, server, dismissed.1, dismissed.2⟩

/-- Take turns, at most `fuel` of them, until one of them finds nothing to do;
`notices` are those of the turns before. -/
def serveWithin : Nat → List Notice → Server → Connection → Served
  | 0, notices, server, connection => ⟨server, connection, notices⟩
  | fuel + 1, notices, server, connection =>
      let turn := server.turn connection
      match turn.activity with
      | .idle => ⟨turn.server, turn.connection, notices ++ turn.notices⟩
      | .served _ _ | .ended =>
          serveWithin fuel (notices ++ turn.notices) turn.server turn.connection

/-- Take all turns that the octets received so far allow.  Every request has at
least one octet, so no more requests than octets can be answered before the
turn that finds none. -/
def serve (server : Server) (connection : Connection) : Served :=
  serveWithin (connection.stream.size + 1) [] server connection

end Server

end DurableStore
