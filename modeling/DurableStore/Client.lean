import DurableStore.Server.Deployment

/-!
# Clients

A client sends requests over a connection of its own and takes the replies off
it one by one.  A call that finds no complete reply can be repeated; octets that
have arrived are kept for it.

Main definitions:

- `Client.request`: the octets of a request.
- `Client.call`: send octets and take the next reply.
-/

namespace DurableStore

/-- A client. -/
structure Client where
  /-- The number of its connection. -/
  connection : Nat
  limits : Limits
  /-- The octets from the server. -/
  stream : Stream
  /-- The number of replies whose octets have arrived. -/
  arrived : Nat
  deriving DecidableEq, Repr

/-- What a call of a client leads to. -/
structure Call where
  received : Received
  client : Client
  deployment : Deployment
  notices : List Notice
  deriving DecidableEq

namespace Client

/-- A client on a new connection. -/
def connect (deployment : Deployment) (peer : String) (limits : Limits) : Client × Deployment :=
  (⟨deployment.connections.length, limits, .empty, 0⟩, deployment.connect peer)

/-- The octets of the request with the given name and arguments. -/
def request (name : Bytes) (args : List Argument) : Except StrayRun Bytes :=
  (Command.request name args).map Value.wire

/-- The octets of a request for one of the commands that exist. -/
def requestOf (verb : Verb) (args : List Argument) : Except StrayRun Bytes :=
  request (Bytes.ofString verb.word) args

/-- What the server has sent arrives, and with it the end of the connection. -/
def catchUp (client : Client) (connection : Connection) : Client :=
  let stream := client.stream.feed (connection.outputAfter client.arrived)
  { client with
    stream := if connection.isOpen then stream else stream.close
    arrived := connection.sent.length }

/-- Take the next reply. -/
def read (client : Client) (deployment : Deployment) : Call :=
  let client :=
    match deployment.connections[client.connection]? with
    | some connection => client.catchUp connection
    | none => client
  let answer := client.stream.next client.limits Settings.readSize
  ⟨answer.1, { client with stream := answer.2 }, deployment, []⟩

/-- Send octets and take the next reply. -/
def call (client : Client) (deployment : Deployment) (octets : Bytes) : Call :=
  let outcome := deployment.receive client.connection octets
  { client.read outcome.deployment with notices := outcome.notices }

/-- Hang up. -/
def disconnect (client : Client) (deployment : Deployment) : Outcome :=
  deployment.hangUp client.connection

end Client

end DurableStore
