import DurableStore.Client
import DurableStore.Proofs.Server.Traffic
import Mathlib.Logic.Function.Basic

/-!
# Clients on a network

Clients call a server over a network.  A call writes a request, whose octets reach the
server in pieces; the handler of the connection takes turns; what it sends reaches the
client in pieces; and the call goes on until it has got a whole reply.  All of this happens
in any order, but a client makes no call before its last one has returned.  The notes of a
run say which calls were made, which requests were answered and what was returned.

Main definitions:

- `Invocation`: a call of a client.
- `Minutes.ofNotes`: the minutes of a run in which every call returns the reply to its own
  request.
- `Network.step` and `Network.run`: what happens between clients and server.
-/

namespace DurableStore

/-! ## Calls -/

/-- A call of a client: the name of a command and its arguments. -/
structure Invocation where
  name : Bytes
  args : List Argument
  deriving DecidableEq, Repr

namespace Invocation

/-- A call of one of the commands that exist. -/
def of (verb : Verb) (args : List Argument) : Invocation :=
  ⟨Bytes.ofString verb.word, args⟩

/-- The command that the name of a call stands for. -/
def verb? (invocation : Invocation) : Option Verb :=
  Verb.ofName? invocation.name

/-- The octets of the arguments of a call, unless one of its texts is invalid. -/
def payloads (invocation : Invocation) : Except StrayRun (List Bytes) :=
  invocation.args.mapM Argument.payload

/-- The request that a call sends, unless one of its texts is invalid. -/
def request (invocation : Invocation) : Except StrayRun Value :=
  Command.request invocation.name invocation.args

variable {invocation : Invocation}

/-- A call of one of the commands that exist is a call of that command. -/
theorem verb_of (verb : Verb) (args : List Argument) : (of verb args).verb? = some verb := by
  change Verb.ofName? (Bytes.ofString verb.word) = some verb
  cases verb <;> decide +kernel

/-- A request consists of the name and the octets of the arguments of its call. -/
theorem request_eq_ok {request : Value} (hrequest : invocation.request = .ok request) :
    ∃ payloads, invocation.payloads = .ok payloads ∧
      request = .array (.bulk invocation.name :: payloads.map .bulk) := by
  obtain ⟨-, payloads, hpayloads, hshape⟩ := Command.request_eq_ok.mp hrequest
  exact ⟨payloads, hpayloads, hshape⟩

/-- The request of a call asks for the command with the name and the arguments of the
call. -/
theorem parse_request {request : Value} {payloads : List Bytes}
    (hrequest : invocation.request = .ok request) (hpayloads : invocation.payloads = .ok payloads) :
    Command.parse request = .ok ⟨invocation.name, payloads.map .bulk, some request⟩ := by
  obtain ⟨others, hothers, hshape⟩ := request_eq_ok hrequest
  rw [hpayloads] at hothers
  cases hothers
  exact Command.parse_eq_ok.mpr ⟨invocation.name, payloads, hshape, rfl⟩

/-- The request of a call has a written form. -/
theorem encodeFault_of_request {request : Value} (hrequest : invocation.request = .ok request) :
    request.encodeFault? = none := by
  obtain ⟨payloads, hpayloads, -⟩ := request_eq_ok hrequest
  exact Command.encodeFault_of_parse (parse_request hrequest hpayloads)

/-- What a client sends is the written form of the request of its call. -/
theorem request_of_octets {octets : Bytes}
    (hoctets : Client.request invocation.name invocation.args = .ok octets) :
    ∃ request, invocation.request = .ok request ∧ octets = request.wire := by
  unfold Client.request at hoctets
  unfold Invocation.request
  cases hrequest : Command.request invocation.name invocation.args with
  | error run =>
      rw [hrequest] at hoctets
      cases hoctets
  | ok request =>
      rw [hrequest] at hoctets
      exact ⟨request, rfl, (Except.ok.inj hoctets).symm⟩

end Invocation

/-! ## Minutes -/

/-- What can be noted down about calls. -/
inductive Note
  /-- A client has made a call. -/
  | called (id : Nat) (invocation : Invocation)
  /-- The server has answered a request. -/
  | answered (exchange : Exchange)
  /-- A call has returned. -/
  | returned (id : Nat) (received : Received)

/-- How far a client has come with its call. -/
inductive CallPhase
  /-- No call is under way. -/
  | idle
  /-- The call has been made. -/
  | asked (invocation : Invocation)
  /-- The request of the call has been answered. -/
  | answered (reply : Value)

/-- A call whose request has been answered. -/
structure AnsweredCall where
  invocation : Invocation
  exchange : Exchange

/-- How far the clients have come, and the calls that have been answered, in the order of
the answers. -/
structure Minutes where
  phase : Nat → CallPhase
  calls : List AnsweredCall

namespace Minutes

/-- The minutes before any call. -/
def blank : Minutes :=
  ⟨fun _ => .idle, []⟩

/-- A client has come this far. -/
def advance (minutes : Minutes) (id : Nat) (phase : CallPhase) : Minutes :=
  { minutes with phase := Function.update minutes.phase id phase }

/-- A note enters the minutes.  A client makes a call when no other one is under way; what
is answered is the request of this call, once; and what the call returns is the reply. -/
def enter (minutes : Minutes) : Note → Option Minutes
  | .called id invocation =>
      match minutes.phase id with
      | .idle => some (minutes.advance id (.asked invocation))
      | _ => none
  | .answered exchange =>
      match minutes.phase exchange.id with
      | .asked invocation =>
          match invocation.request with
          | .ok request =>
              if request = exchange.request then
                some
                  { minutes.advance exchange.id (.answered exchange.reply) with
                    calls := minutes.calls ++ [⟨invocation, exchange⟩] }
              else none
          | .error _ => none
      | _ => none
  | .returned id received =>
      match minutes.phase id with
      | .answered reply =>
          if received = .value reply then some (minutes.advance id .idle) else none
      | _ => none

/-- The minutes of notes, if all of them can enter. -/
def ofNotes (notes : List Note) : Option Minutes :=
  notes.foldlM enter blank

variable {minutes : Minutes} {notes : List Note}

/-- A further note enters the minutes of the others. -/
theorem ofNotes_concat (hminutes : ofNotes notes = some minutes) (note : Note) :
    ofNotes (notes ++ [note]) = minutes.enter note := by
  unfold ofNotes at hminutes ⊢
  rw [List.foldlM_append, hminutes]
  simp

/-- A client that has come further. -/
theorem phase_advance (minutes : Minutes) (id : Nat) (phase : CallPhase) :
    (minutes.advance id phase).phase id = phase :=
  Function.update_self ..

/-- The other clients have come as far as before. -/
theorem phase_advance_of_ne (minutes : Minutes) {id other : Nat} (hother : other ≠ id)
    (phase : CallPhase) : (minutes.advance id phase).phase other = minutes.phase other :=
  Function.update_of_ne hother ..

end Minutes

/-! ## Networks -/

/-- The end of a connection at its client. -/
structure Endpoint where
  limits : Limits
  /-- The octets that the client has written and that have not reached the server. -/
  outgoing : Bytes
  /-- The number of octets from the server that have reached the client. -/
  brought : Nat
  /-- The octets from the server. -/
  stream : Stream
  /-- Whether a call has not returned. -/
  isCalling : Bool

/-- A server with its history, its clients, and the notes about their calls. -/
structure Network where
  history : History
  endpoints : List Endpoint
  notes : List Note

namespace Network

/-- What can happen on a network. -/
inductive Motion
  /-- A client makes a call, unless its last one has not returned. -/
  | call (id : Nat) (invocation : Invocation)
  /-- The first octets on the way to the server arrive. -/
  | carry (id count : Nat)
  /-- The handler of a connection takes a turn. -/
  | turn (id : Nat)
  /-- The background flusher of the server has its round. -/
  | flush
  /-- The first octets on the way to a client arrive. -/
  | bring (id count : Nat)
  /-- The call of a client looks for its reply. -/
  | resume (id : Nat)
  deriving DecidableEq, Repr

/-- Whether the request of a call that is made keeps within the limits. -/
def Motion.requestFits (limits : Limits) : Motion → Bool
  | .call _ invocation =>
      match invocation.request with
      | .ok request => decide (request.Fits limits limits.depth)
      | .error _ => true
  | _ => true

/-- Clients that have just connected to a server. -/
def start (server : Server) (volume : Volume) (peers : List String) : Network where
  history := .ofPeers server volume peers
  endpoints := peers.map fun _ => ⟨server.limits, [], 0, .empty, false⟩
  notes := []

/-- A client makes a call.  If one of its texts is invalid, nothing is sent. -/
def call (network : Network) (id : Nat) (invocation : Invocation) : Network :=
  match network.endpoints[id]?, Client.request invocation.name invocation.args with
  | some endpoint, .ok octets =>
      if endpoint.isCalling then network
      else
        { network with
          endpoints := network.endpoints.set id
            { endpoint with outgoing := endpoint.outgoing ++ octets, isCalling := true }
          notes := network.notes ++ [.called id invocation] }
  | _, _ => network

/-- The first octets on the way to the server arrive. -/
def carry (network : Network) (id count : Nat) : Network :=
  match network.endpoints[id]? with
  | some endpoint =>
      { network with
        history := network.history.step (.deliver id (endpoint.outgoing.take count))
        endpoints := network.endpoints.set id
          { endpoint with outgoing := endpoint.outgoing.drop count } }
  | none => network

/-- Something happens at the server. -/
def atServer (network : Network) (event : Event) : Network :=
  { network with
    history := network.history.step event
    notes := network.notes ++
      (network.history.deployment.answered event).map fun transaction =>
        .answered transaction.exchange }

/-- The first octets on the way to a client arrive, and with the last ones the end of the
connection. -/
def bring (network : Network) (id count : Nat) : Network :=
  match network.endpoints[id]?, network.history.deployment.connections[id]? with
  | some endpoint, some connection =>
      let octets := (connection.output.drop endpoint.brought).take count
      let brought := endpoint.brought + octets.length
      let stream := endpoint.stream.feed octets
      { network with
        endpoints := network.endpoints.set id
          { endpoint with
            brought
            stream :=
              if connection.isOpen || decide (brought < connection.output.length) then stream
              else stream.close } }
  | _, _ => network

/-- The call of a client looks for its reply, and returns unless it has to wait. -/
def resume (network : Network) (id : Nat) : Network :=
  match network.endpoints[id]? with
  | some endpoint =>
      if endpoint.isCalling then
        match endpoint.stream.next endpoint.limits Settings.readSize with
        | (.waiting, stream) =>
            { network with endpoints := network.endpoints.set id { endpoint with stream } }
        | (received, stream) =>
            { network with
              endpoints := network.endpoints.set id { endpoint with stream, isCalling := false }
              notes := network.notes ++ [.returned id received] }
      else network
  | none => network

/-- Something happens. -/
def step (network : Network) : Motion → Network
  | .call id invocation => network.call id invocation
  | .carry id count => network.carry id count
  | .turn id => network.atServer (.turn id)
  | .flush => network.atServer .flush
  | .bring id count => network.bring id count
  | .resume id => network.resume id

/-- Things happen one after the other. -/
def run (network : Network) (motions : List Motion) : Network :=
  motions.foldl step network

/-- What happens later goes on from what the rest has left. -/
theorem run_append (network : Network) (motions later : List Motion) :
    network.run (motions ++ later) = (network.run motions).run later :=
  List.foldl_append

/-- All replies of the server can be written and keep within the limits. -/
def RepliesFit (limits : Limits) (network : Network) : Prop :=
  ∀ exchange ∈ network.history.exchanges,
    exchange.reply.encodeFault? = none ∧ exchange.reply.Fits limits limits.depth

instance (limits : Limits) (network : Network) : Decidable (network.RepliesFit limits) :=
  inferInstanceAs (Decidable (∀ exchange ∈ network.history.exchanges, _))

/-- Replies are not taken back. -/
theorem exchanges_step (network : Network) (motion : Motion) :
    network.history.exchanges <+: (network.step motion).history.exchanges := by
  have hmore : ∀ event, network.history.exchanges <+:
      (network.history.step event).exchanges := by
    intro event
    rw [History.exchanges, History.exchanges, History.step, List.map_append]
    exact List.prefix_append _ _
  cases motion with
  | call id invocation =>
      simp only [step, call]
      split
      · split <;> exact List.prefix_rfl
      · exact List.prefix_rfl
  | carry id count =>
      simp only [step, carry]
      split
      · exact hmore _
      · exact List.prefix_rfl
  | turn id => exact hmore _
  | flush => exact hmore _
  | bring id count =>
      simp only [step, bring]
      split <;> exact List.prefix_rfl
  | resume id =>
      simp only [step, resume]
      split
      · split
        · split <;> exact List.prefix_rfl
        · exact List.prefix_rfl
      · exact List.prefix_rfl

/-- The replies before a step fit if those after it do. -/
theorem RepliesFit.before {limits : Limits} {network : Network} {motion : Motion}
    (hreplies : (network.step motion).RepliesFit limits) : network.RepliesFit limits := by
  intro exchange hexchange
  exact hreplies exchange ((network.exchanges_step motion).subset hexchange)

end Network

end DurableStore
