import DurableStore.Proofs.Client.Rounds
import DurableStore.Proofs.Server.Isolation

/-!
# Calls as uses of one map

All calls of all clients together are, in the order in which their requests are answered,
a sequential use of one map from keys to values.  Setting a key succeeds, getting a key
gives the value that has been set last and has not been removed since, and deleting keys
gives the number of different ones of them that are present.  Arguments with the same
octets name the same key, whether they are given as texts, octets or integers.  A call
that deletes no key at all is refused.

Main results:

- Definition `AnsweredCall.Live`: the value that a key has.
- Theorem `AnsweredCall.live_iff`: the value that a key has is the last effect on it.
- Structure `OneMap`: calls that are a sequential use of one map.
- Structure `Network.EndToEnd` and theorem `Network.run_endToEnd`: every run of every number
  of clients.
-/

namespace DurableStore

/-! ## What calls ask for -/

namespace AnsweredCall

/-- A call sets a key to a value. -/
def Sets (call : AnsweredCall) (key value : Bytes) : Prop :=
  call.invocation.verb? = some .set ∧ call.invocation.payloads = .ok [key, value]

/-- A call gets the value of a key. -/
def Gets (call : AnsweredCall) (key : Bytes) : Prop :=
  call.invocation.verb? = some .get ∧ call.invocation.payloads = .ok [key]

/-- A call deletes keys. -/
def Deletes (call : AnsweredCall) (keys : List Bytes) : Prop :=
  call.invocation.verb? = some .del ∧ call.invocation.payloads = .ok keys

/-- A call deletes a key among others. -/
def Removes (call : AnsweredCall) (key : Bytes) : Prop :=
  ∃ keys, call.Deletes keys ∧ key ∈ keys

/-- The last call that has set the key has set it to this value, and no call has deleted the
key since. -/
def Live (calls : List AnsweredCall) (key value : Bytes) : Prop :=
  Lasts (fun call => call.Sets key value)
    (fun call => (∃ other, call.Sets key other) ∨ call.Removes key) calls

/-- The request that has been answered is that of the call. -/
def Sound (call : AnsweredCall) : Prop :=
  call.invocation.request = .ok call.exchange.request

variable {call : AnsweredCall} {calls : List AnsweredCall} {key value : Bytes}

/-- The command that the request of a call asks for. -/
theorem Sound.parse (hsound : call.Sound) :
    ∃ payloads command, call.invocation.payloads = .ok payloads ∧
      Command.parse call.exchange.request = .ok command ∧
      command.verb? = call.invocation.verb? ∧ command.args = payloads.map .bulk := by
  obtain ⟨payloads, hpayloads, -⟩ := Invocation.request_eq_ok hsound
  exact ⟨payloads, _, hpayloads, Invocation.parse_request hsound hpayloads, rfl, rfl⟩

/-- A call sets a key exactly if that is the effect of its request. -/
theorem Sound.sets_iff (hsound : call.Sound) :
    call.Sets key value ↔ call.exchange.request.effect? key = some (.set (.bulk value)) := by
  obtain ⟨payloads, command, hpayloads, hparse, hverb, hargs⟩ := hsound.parse
  unfold Sets Value.effect? Command.effect?
  rw [hparse, hpayloads, ← hverb]
  simp only [hargs]
  cases command.verb? with
  | none => simp
  | some verb =>
      cases verb with
      | ping => simp
      | get => simp
      | del => simp [Effect.ofRemove?]; split <;> simp
      | set =>
          rcases payloads with _ | ⟨first, _ | ⟨second, _ | ⟨third, payloads⟩⟩⟩ <;>
            simp [Effect.ofStore?, Value.payload?]

/-- A call deletes a key exactly if that is the effect of its request. -/
theorem Sound.removes_iff (hsound : call.Sound) :
    call.Removes key ↔ call.exchange.request.effect? key = some .remove := by
  obtain ⟨payloads, command, hpayloads, hparse, hverb, hargs⟩ := hsound.parse
  unfold Removes Deletes Value.effect? Command.effect?
  rw [hparse, hpayloads, ← hverb]
  simp only [hargs]
  cases command.verb? with
  | none => simp
  | some verb =>
      cases verb with
      | ping => simp
      | get => simp
      | set => simp [Effect.ofStore?]; split <;> simp
      | del => simp [Effect.ofRemove?, Value.payloads_eq_some.mpr rfl]

/-- What the request of a call sets a key to is a present bulk string. -/
theorem Sound.bulk_of_set (hsound : call.Sound) {stored : Value}
    (heffect : call.exchange.request.effect? key = some (.set stored)) :
    ∃ value, stored = .bulk value := by
  obtain ⟨payloads, command, -, hparse, -, hargs⟩ := hsound.parse
  unfold Value.effect? Command.effect? at heffect
  rw [hparse] at heffect
  simp only [hargs] at heffect
  split at heffect
  · rcases payloads with _ | ⟨first, _ | ⟨second, _ | ⟨third, payloads⟩⟩⟩
    all_goals simp [Effect.ofStore?] at heffect
    exact ⟨second, heffect.2.symm⟩
  · simp [Effect.ofRemove?] at heffect
    split at heffect <;> simp at heffect
  · cases heffect

/-- A key has a value exactly if setting it to the value is the last effect on it. -/
theorem live_iff (hsound : ∀ call ∈ calls, call.Sound) :
    Live calls key value ↔
      Value.lastEffect? (calls.map fun call => call.exchange.request) key =
        some (.set (.bulk value)) := by
  unfold Live Value.lastEffect?
  rw [List.filterMap_map]
  apply lasts_iff_getLast
  · intro call hcall
    exact (hsound call hcall).sets_iff
  · intro call hcall
    rw [(hsound call hcall).removes_iff]
    simp only [(hsound call hcall).sets_iff]
    constructor
    · rintro (⟨other, heffect⟩ | heffect)
      all_goals simp [heffect]
    · intro hsome
      obtain ⟨effect, heffect⟩ := Option.isSome_iff_exists.mp hsome
      cases effect with
      | remove => exact .inr heffect
      | set stored =>
          obtain ⟨other, rfl⟩ := (hsound call hcall).bulk_of_set heffect
          exact .inl ⟨other, heffect⟩

/-- What the last effect on a key sets it to is a present bulk string. -/
theorem bulk_of_lastEffect (hsound : ∀ call ∈ calls, call.Sound) {stored : Value}
    (hlast : Value.lastEffect? (calls.map fun call => call.exchange.request) key =
      some (.set stored)) : ∃ value, stored = .bulk value := by
  have hmem := List.mem_of_getLast? hlast
  rw [List.filterMap_map] at hmem
  obtain ⟨call, hcall, heffect⟩ := List.mem_filterMap.mp hmem
  exact (hsound call hcall).bulk_of_set heffect

end AnsweredCall

namespace Minutes

variable {minutes later : Minutes} {note : Note} {notes : List Note}

/-- A note adds to the minutes no call, or one whose own request has been answered. -/
theorem calls_enter (henter : minutes.enter note = some later) :
    later.calls = minutes.calls ∨ ∃ call : AnsweredCall, call.Sound ∧
      later.calls = minutes.calls ++ [call] := by
  unfold enter at henter
  cases note with
  | called id invocation =>
      simp only at henter
      split at henter
      · exact .inl (congrArg Minutes.calls (Option.some.inj henter)).symm
      · cases henter
  | returned id received =>
      simp only at henter
      split at henter
      · split at henter
        · exact .inl (congrArg Minutes.calls (Option.some.inj henter)).symm
        · cases henter
      · cases henter
  | answered exchange =>
      simp only at henter
      split at henter
      · rename_i invocation _
        cases hrequest : invocation.request with
        | error run =>
            rw [hrequest] at henter
            cases henter
        | ok request =>
            rw [hrequest] at henter
            simp only at henter
            split at henter
            · rename_i hsame
              refine .inr ⟨⟨invocation, exchange⟩, ?_,
                (congrArg Minutes.calls (Option.some.inj henter)).symm⟩
              rw [AnsweredCall.Sound, hrequest, hsame]
            · cases henter
      · cases henter

/-- The requests of the calls in the minutes are those that have been answered. -/
theorem sound_of_notes (hminutes : ofNotes notes = some minutes) :
    ∀ call ∈ minutes.calls, call.Sound := by
  induction notes using List.reverseRecOn generalizing minutes with
  | nil =>
      cases hminutes
      intro call hcall
      cases hcall
  | append_singleton notes note ih =>
      unfold ofNotes at hminutes
      rw [List.foldlM_append] at hminutes
      obtain ⟨earlier, hearlier, hnote⟩ := Option.bind_eq_some_iff.mp hminutes
      rw [List.foldlM_cons] at hnote
      obtain ⟨last, henter, hlast⟩ := Option.bind_eq_some_iff.mp hnote
      cases hlast
      intro call hcall
      rcases calls_enter henter with hsame | ⟨added, hsound, hmore⟩
      · rw [hsame] at hcall
        exact ih hearlier call hcall
      · rw [hmore] at hcall
        rcases List.mem_append.mp hcall with hold | hnew
        · exact ih hearlier call hold
        · rw [List.mem_singleton.mp hnew]
          exact hsound

end Minutes

/-! ## One map -/

/-- Calls, in the order of the answers, are a sequential use of one map. -/
structure OneMap (calls : List AnsweredCall) : Prop where
  /-- Setting a key succeeds. -/
  set : ∀ before call after key value, calls = before ++ call :: after →
    call.Sets key value → call.exchange.reply = Reply.ok
  /-- Getting a key gives its value. -/
  get : ∀ before call after key value, calls = before ++ call :: after →
    call.Gets key → AnsweredCall.Live before key value → call.exchange.reply = .bulk value
  /-- Getting a key without a value gives nothing. -/
  missing : ∀ before call after key, calls = before ++ call :: after →
    call.Gets key → (∀ value, ¬ AnsweredCall.Live before key value) → call.exchange.reply = .null
  /-- Deleting keys gives the number of different ones of them that have a value. -/
  delete : ∀ before call after keys, calls = before ++ call :: after →
    call.Deletes keys → keys ≠ [] →
      ∃ present : Finset Bytes,
        (∀ key, key ∈ present ↔ key ∈ keys ∧ ∃ value, AnsweredCall.Live before key value) ∧
          call.exchange.reply = .integer present.card
  /-- Deleting no keys is refused. -/
  refused : ∀ before call after, calls = before ++ call :: after →
    call.Deletes [] → call.exchange.reply = Reply.wrongArity .del

/-- A reply is that of the server that the requests before have left. -/
theorem Server.reply_split {server : Server} {requests : List (Nat × Value)}
    {before after : List Exchange} {exchange : Exchange}
    (hexchanges : (server.answerAll requests).1 = before ++ exchange :: after) :
    exchange.reply = ((server.answerAll (before.map fun exchange =>
      (exchange.id, exchange.request))).2.process exchange.request).reply := by
  induction before generalizing server requests with
  | nil =>
      cases requests with
      | nil => cases hexchanges
      | cons request requests =>
          cases hexchanges
          rfl
  | cons first before ih =>
      cases requests with
      | nil => cases hexchanges
      | cons request requests =>
          obtain ⟨rfl, hrest⟩ := List.cons.inj hexchanges
          exact ih hrest

/-- A call has been answered from a keyspace with what the calls before it have left. -/
structure AnsweredCall.ServedFrom (before : List AnsweredCall) (keyspace : Keyspace)
    (call : AnsweredCall) : Prop where
  reply_eq : ∀ verb payloads, call.invocation.verb? = some verb →
    call.invocation.payloads = .ok payloads →
    call.exchange.reply = (keyspace.run verb (payloads.map .bulk)).1
  lookup_live : ∀ key value, Live before key value →
    keyspace.lookup? key = some (some (.bulk value))
  lookup_dead : ∀ key, (∀ value, ¬ Live before key value) → keyspace.lookup? key = none

/-- Every call has been answered from what the calls before it have left. -/
theorem AnsweredCall.exists_servedFrom {server : Server} (hempty : server.keyspace = .empty)
    {requests : List (Nat × Value)} {before after : List AnsweredCall} {call : AnsweredCall}
    (hsound : ∀ other ∈ before ++ call :: after, other.Sound)
    (hexchanges : (before ++ call :: after).map exchange = (server.answerAll requests).1) :
    ∃ keyspace, call.ServedFrom before keyspace := by
  obtain ⟨hbefore, hrest⟩ := List.forall_mem_append.mp hsound
  have hreply : call.exchange.reply = ((server.answerAll ((before.map exchange).map
      fun exchange => (exchange.id, exchange.request))).2.process call.exchange.request).reply := by
    apply Server.reply_split
    rw [← hexchanges, List.map_append, List.map_cons]
  have hlookup := server.lookup_answerAll ((before.map exchange).map fun exchange =>
    (exchange.id, exchange.request))
  generalize (server.answerAll ((before.map exchange).map fun exchange =>
    (exchange.id, exchange.request))).2 = there at hreply hlookup
  have hrequests : ((before.map exchange).map fun exchange =>
      (exchange.id, exchange.request)).map Prod.snd =
        before.map fun call => call.exchange.request := by
    rw [List.map_map, List.map_map]
    rfl
  rw [hrequests, hempty] at hlookup
  refine ⟨there.keyspace, ?_, ?_, ?_⟩
  · intro verb payloads hverb hpayloads
    obtain ⟨others, command, hothers, hparse, hsame, hargs⟩ :=
      (hrest call List.mem_cons_self).parse
    rw [hpayloads] at hothers
    cases hothers
    obtain ⟨hdispatch, -⟩ := Server.process_of_parse_ok hparse there
    rw [hreply, hdispatch, Keyspace.dispatch,
      show Verb.ofName? command.name = some verb from hsame.trans hverb, hargs]
  · intro key value hlive
    rw [hlookup, (live_iff hbefore).mp hlive]
    rfl
  · intro key hdead
    rw [hlookup]
    cases hlast : Value.lastEffect? (before.map fun call => call.exchange.request) key with
    | none => rfl
    | some effect =>
        cases effect with
        | remove => rfl
        | set stored =>
            obtain ⟨value, rfl⟩ := bulk_of_lastEffect hbefore hlast
            exact absurd ((live_iff hbefore).mpr hlast) (hdead value)

namespace AnsweredCall.ServedFrom

variable {before : List AnsweredCall} {keyspace : Keyspace} {call : AnsweredCall}

/-- A key has a value in the keyspace exactly if the calls before have left it one. -/
theorem isSome_get (hserved : call.ServedFrom before keyspace) (key : Bytes) :
    (keyspace.get? key).isSome = true ↔ ∃ value, Live before key value := by
  by_cases hlive : ∃ value, Live before key value
  · obtain ⟨value, hvalue⟩ := hlive
    simp only [Keyspace.get?, hserved.lookup_live key value hvalue]
    exact ⟨fun _ => ⟨value, hvalue⟩, fun _ => rfl⟩
  · have hnone := hserved.lookup_dead key (not_exists.mp hlive)
    simp [Keyspace.get?, hnone, hlive]

/-- Deleting keys gives the number of different ones of them that have a value. -/
theorem reply_delete (hserved : call.ServedFrom before keyspace) {keys : List Bytes}
    (hdeletes : call.Deletes keys) (hkeys : keys ≠ []) :
    call.exchange.reply = .integer (keyspace.valued keys).card := by
  rw [hserved.reply_eq .del keys hdeletes.1 hdeletes.2, ← Keyspace.deleteMany_count, Keyspace.run,
    Keyspace.remove_keys _ hkeys]

end AnsweredCall.ServedFrom

/-- Calls that are answered one after the other, at first from an empty keyspace, are a
sequential use of one map. -/
theorem OneMap.of_answers {server : Server} (hempty : server.keyspace = .empty)
    {requests : List (Nat × Value)} {calls : List AnsweredCall}
    (hsound : ∀ call ∈ calls, call.Sound)
    (hexchanges : calls.map AnsweredCall.exchange = (server.answerAll requests).1) :
    OneMap calls where
  set := by
    rintro before call after key value rfl ⟨hverb, hpayloads⟩
    obtain ⟨keyspace, hserved⟩ := AnsweredCall.exists_servedFrom hempty hsound hexchanges
    exact hserved.reply_eq .set [key, value] hverb hpayloads
  get := by
    rintro before call after key value rfl ⟨hverb, hpayloads⟩ hlive
    obtain ⟨keyspace, hserved⟩ := AnsweredCall.exists_servedFrom hempty hsound hexchanges
    rw [hserved.reply_eq .get [key] hverb hpayloads]
    change (keyspace.get? key).getD .null = _
    rw [Keyspace.get?, hserved.lookup_live key value hlive]
    rfl
  missing := by
    rintro before call after key rfl ⟨hverb, hpayloads⟩ hdead
    obtain ⟨keyspace, hserved⟩ := AnsweredCall.exists_servedFrom hempty hsound hexchanges
    rw [hserved.reply_eq .get [key] hverb hpayloads]
    change (keyspace.get? key).getD .null = _
    rw [Keyspace.get?, hserved.lookup_dead key hdead]
    rfl
  delete := by
    rintro before call after keys rfl hdeletes hkeys
    obtain ⟨keyspace, hserved⟩ := AnsweredCall.exists_servedFrom hempty hsound hexchanges
    refine ⟨keyspace.valued keys, ?_, hserved.reply_delete hdeletes hkeys⟩
    intro key
    rw [Keyspace.valued, Finset.mem_filter, List.mem_toFinset, hserved.isSome_get]
  refused := by
    rintro before call after rfl ⟨hverb, hpayloads⟩
    obtain ⟨keyspace, hserved⟩ := AnsweredCall.exists_servedFrom hempty hsound hexchanges
    exact hserved.reply_eq .del [] hverb hpayloads

/-! ## All clients together -/

namespace Network

/-- What the calls of all clients come to. -/
structure EndToEnd (server : Server) (minutes : Minutes) (network : Network) : Prop where
  /-- Every call that returns has returned the reply to its own request. -/
  minutes_eq : Minutes.ofNotes network.notes = some minutes
  /-- The calls in the minutes are all whose requests have been answered, in this order. -/
  exchanges_eq : minutes.calls.map AnsweredCall.exchange = network.history.exchanges
  /-- The replies are those to the requests, one after the other. -/
  replies_eq : (minutes.calls.map fun call => call.exchange.reply) =
    server.replies (minutes.calls.map fun call => call.exchange.request)
  /-- All calls together use one map. -/
  oneMap : OneMap minutes.calls
  /-- A call that has not returned returns once its request has arrived and has been
  answered, and the reply has arrived. -/
  completes : ∀ (id : Nat) (endpoint : Endpoint), network.endpoints[id]? = some endpoint →
    ∃ sent, (network.run [.carry id sent, .turn id]).RepliesFit server.limits →
      ∃ received last, (network.run [.carry id sent, .turn id, .bring id received,
        .resume id]).endpoints[id]? = some last ∧ last.isCalling = false
  /-- A call during which nothing else happens returns the reply to its request. -/
  alone : ∀ (id : Nat) (endpoint : Endpoint) (connection : Connection) (invocation : Invocation)
    (request reply : Value), network.endpoints[id]? = some endpoint →
    network.history.deployment.connections[id]? = some connection → endpoint.isCalling = false →
    invocation.request = .ok request → request.Fits server.limits server.limits.depth →
    (network.history.deployment.server.process request).reply = reply →
    reply.encodeFault? = none → reply.Fits server.limits server.limits.depth →
      (Client.call ⟨id, endpoint.limits, endpoint.stream, connection.sent.length⟩
        network.history.deployment request.wire).received = .value reply

/-- Whatever clients call, and in whatever pieces and order octets arrive and handlers take
turns, every call returns the reply to its own request, and all calls together use one
map.  The server may have any log that is not half closed already. -/
theorem run_endToEnd {server : Server} (hwhole : server.logIsHalfClosed = false)
    (volume : Volume) (peers : List String) {motions : List Motion}
    (hempty : server.keyspace = .empty)
    (hrequests : ∀ motion ∈ motions, motion.requestFits server.limits = true)
    (hreplies : ((start server volume peers).run motions).RepliesFit server.limits) :
    ∃ minutes, ((start server volume peers).run motions).EndToEnd server minutes := by
  obtain ⟨minutes, hkept⟩ := (Kept.start hwhole volume peers).run hrequests hreplies
  have hexchanges := hkept.calls_eq.trans hkept.answers.exchanges_eq
  refine ⟨minutes, hkept.minutes_eq, hkept.calls_eq, ?_,
    .of_answers hempty (Minutes.sound_of_notes hkept.minutes_eq) hexchanges, ?_, ?_⟩
  · have hreply := server.replies_answerAll
      ((start server volume peers).run motions).history.requests
    rw [← hkept.answers.exchanges_eq, History.requests, ← hkept.calls_eq] at hreply
    simpa [List.map_map, Function.comp_def] using hreply
  · intro id endpoint hendpoint
    exact hkept.completes hendpoint
  · intro id endpoint connection invocation request reply hendpoint hconnection hidle hrequest
      hfits hreply hwritten hreplyFits
    exact hkept.call_alone hendpoint hconnection hidle hrequest hfits hreply hwritten hreplyFits

/-- One client sets a key that it gives as an integer, while another one gets the same key
as a text; octets arrive in pieces, and the answer to the second call is the first to
arrive. -/
def sharedKey : List Motion :=
  [.call 0 (.of .set [.integer 7, .text [0x76]]), .carry 0 11,
    .call 1 (.of .get [.text [0x37]]), .turn 0, .carry 0 30, .turn 0, .carry 1 30, .turn 1,
    .bring 1 3, .resume 1, .bring 1 9, .resume 1, .bring 0 9, .resume 0,
    .call 1 (.of .del [.bytes [0x37], .text [0x37], .text [0x78]]), .carry 1 60, .turn 1,
    .bring 1 9, .resume 1]

/-- The second client gets what the first one has set. -/
theorem run_endToEnd_sharedKey :
    (∀ motion ∈ sharedKey, motion.requestFits Limits.standard = true) ∧
      ((start (.create "localhost" 6379 .standard .empty none) ⟨.absent, false⟩
        ["writer", "reader"]).run sharedKey).RepliesFit .standard ∧
      (∃ minutes, ((start (.create "localhost" 6379 .standard .empty none) ⟨.absent, false⟩
        ["writer", "reader"]).run sharedKey).EndToEnd
          (.create "localhost" 6379 .standard .empty none) minutes) ∧
      ((start (.create "localhost" 6379 .standard .empty none) ⟨.absent, false⟩
        ["writer", "reader"]).run sharedKey).history.exchanges.map Exchange.reply =
          [Reply.ok, .bulk [0x76], .integer 1] :=
  have hrequests : ∀ motion ∈ sharedKey, motion.requestFits Limits.standard = true := by
    decide +kernel
  have hreplies : ((start (.create "localhost" 6379 .standard .empty none) ⟨.absent, false⟩
      ["writer", "reader"]).run sharedKey).RepliesFit .standard := by
    decide +kernel
  ⟨hrequests, hreplies, run_endToEnd rfl _ _ rfl hrequests hreplies, by decide +kernel⟩

/-- A client deletes no keys at all. -/
def nothingDeleted : List Motion :=
  [.call 0 (.of .del []), .carry 0 13, .turn 0, .bring 0 60, .resume 0]

/-- The call does not return the number of the keys that it has deleted, which is none: it
is refused. -/
theorem nothingDeleted_not_counted :
    ¬ ∀ minutes, Minutes.ofNotes ((start (.create "localhost" 6379 .standard .empty none)
        ⟨.absent, false⟩ ["client"]).run nothingDeleted).notes = some minutes →
      ∀ before call after keys, minutes.calls = before ++ call :: after → call.Deletes keys →
        ∃ present : Finset Bytes,
          (∀ key, key ∈ present ↔ key ∈ keys ∧ ∃ value, AnsweredCall.Live before key value) ∧
            call.exchange.reply = .integer present.card := by
  intro hcounted
  have hcalls : (Minutes.ofNotes ((start (.create "localhost" 6379 .standard .empty none)
      ⟨.absent, false⟩ ["client"]).run nothingDeleted).notes).map (fun minutes =>
        minutes.calls.map fun call => (call.invocation, call.exchange.reply)) =
          some [(.of .del [], Reply.wrongArity .del)] := by
    decide +kernel
  obtain ⟨minutes, hminutes, hpairs⟩ := Option.map_eq_some_iff.mp hcalls
  obtain ⟨call, hcall, hpair⟩ := List.map_eq_singleton_iff.mp hpairs
  obtain ⟨hinvocation, hreply⟩ := Prod.mk.inj hpair
  have hdeletes : call.Deletes [] := by
    rw [AnsweredCall.Deletes, hinvocation]
    exact ⟨Invocation.verb_of .del [], rfl⟩
  obtain ⟨present, -, hnumber⟩ := hcounted minutes hminutes [] call [] [] hcall hdeletes
  rw [hreply] at hnumber
  cases hnumber

end Network

end DurableStore
