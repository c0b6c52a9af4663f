import DurableStore.Proofs.Keyspace.Effects
import DurableStore.Proofs.Server.Serving

/-!
# Requests that do not disturb each other

Requests come from several connections, one after the other.  If nobody else writes a key
that the requests of a connection read, the replies on this connection are the same as if
nobody else had asked anything.  If no key is written on two connections, what the
requests do to the keyspace does not depend on the order in which those of different
connections have come.

Main results:

- Definitions `Value.readKeys` and `Value.writtenKeys`: the keys that a request reads and
  writes.
- Theorem `Server.lookup_answerAll`: the cell of a key after requests have been answered.
- Theorem `Server.replies_apart`: the replies on an undisturbed connection.
- Theorem `Exchange.lastEffect_congr`: the order of requests on different connections does
  not matter.
-/

namespace DurableStore

/-! ## Keys of requests -/

namespace Value

/-- What a request does to a key, if it does anything to it. -/
def effect? (request : Value) (key : Bytes) : Option Effect :=
  match Command.parse request with
  | .ok command => command.effect? key
  | .error _ => none

/-- The keys on which the reply to a request depends. -/
def readKeys (request : Value) : List Bytes :=
  match Command.parse request with
  | .ok command => command.readKeys
  | .error _ => []

/-- The keys that a request sets or removes. -/
def writtenKeys (request : Value) : List Bytes :=
  match Command.parse request with
  | .ok command => command.writtenKeys
  | .error _ => []

/-- A request does nothing to a key that it does not write. -/
theorem effect_of_not_mem {request : Value} {key : Bytes} (hnot : key ∉ request.writtenKeys) :
    request.effect? key = none := by
  unfold writtenKeys at hnot
  unfold effect?
  cases hparse : Command.parse request with
  | error error => rfl
  | ok command =>
      rw [hparse] at hnot
      exact Command.effect_of_not_mem hnot

/-- What the last of several requests that did something to a key did to it. -/
def lastEffect? (requests : List Value) (key : Bytes) : Option Effect :=
  (requests.filterMap fun request => request.effect? key).getLast?

/-- A further request decides, if it does anything to the key. -/
theorem lastEffect_append (requests later : List Value) (key : Bytes) :
    lastEffect? (requests ++ later) key =
      (lastEffect? later key).or (lastEffect? requests key) := by
  unfold lastEffect?
  rw [List.filterMap_append, List.getLast?_append]

/-- The known commands among requests do what the requests do. -/
theorem lastEffect_knownAmong (requests : List Value) (key : Bytes) :
    Command.lastEffect? (Command.knownAmong requests) key = lastEffect? requests key := by
  have heffect : (fun request => (Command.known? request).bind fun command =>
      command.effect? key) = fun request => request.effect? key := by
    funext request
    unfold Command.known? effect?
    cases Command.parse request with
    | error error => rfl
    | ok command =>
        cases hverb : command.verb? with
        | none => simp [Command.effect?, hverb]
        | some verb => simp [hverb]
  unfold Command.lastEffect? Command.knownAmong lastEffect?
  rw [List.filterMap_filterMap, heffect]

end Value

/-! ## Requests one after the other -/

namespace Server

/-- The cell of a key after a request has been answered. -/
theorem lookup_process (server : Server) (request : Value) (key : Bytes) :
    (server.process request).server.keyspace.lookup? key =
      ((request.effect? key).map Effect.cell).getD (server.keyspace.lookup? key) := by
  unfold Value.effect?
  cases hparse : Command.parse request with
  | error error =>
      rw [process_of_parse_error hparse]
      rfl
  | ok command =>
      obtain ⟨-, hkeyspace, -⟩ := process_of_parse_ok hparse server
      rw [hkeyspace]
      exact server.keyspace.lookup_dispatch command key

/-- The cell of a key after requests is what the last of those that did something to it
has left. -/
theorem lookup_answerAll (server : Server) (requests : List (Nat × Value)) (key : Bytes) :
    (server.answerAll requests).2.keyspace.lookup? key =
      ((Value.lastEffect? (requests.map Prod.snd) key).map Effect.cell).getD
        (server.keyspace.lookup? key) := by
  induction requests using List.reverseRecOn with
  | nil => rfl
  | append_singleton requests request ih =>
      rw [answerAll_append, List.map_append, Value.lastEffect_append]
      change ((server.answerAll requests).2.process request.2).server.keyspace.lookup? key = _
      rw [lookup_process, ih]
      cases heffect : request.2.effect? key <;> simp [Value.lastEffect?, heffect]

/-- The reply to a request depends only on the cells of the keys that it reads. -/
theorem reply_congr {server other : Server} {request : Value}
    (hlookup : ∀ key ∈ request.readKeys,
      server.keyspace.lookup? key = other.keyspace.lookup? key) :
    (server.process request).reply = (other.process request).reply := by
  cases hparse : Command.parse request with
  | error error => rw [process_of_parse_error hparse, process_of_parse_error hparse]
  | ok command =>
      obtain ⟨hreply, -⟩ := process_of_parse_ok hparse server
      obtain ⟨hother, -⟩ := process_of_parse_ok hparse other
      rw [hreply, hother]
      apply Keyspace.reply_congr
      intro key hkey
      apply hlookup key
      rw [Value.readKeys, hparse]
      exact hkey

/-- If nobody else writes a key that the requests of a connection read, the replies on it
are those that it would get alone. -/
theorem replies_apart {server other : Server} {requests : List (Nat × Value)} {id : Nat}
    {own : Bytes → Prop}
    (hlookup : ∀ key, own key → server.keyspace.lookup? key = other.keyspace.lookup? key)
    (hreads : ∀ request ∈ requests, request.1 = id → ∀ key ∈ request.2.readKeys, own key)
    (hwrites : ∀ request ∈ requests, request.1 ≠ id →
      ∀ key ∈ request.2.writtenKeys, ¬ own key) :
    (Exchange.on id (server.answerAll requests).1).map Exchange.reply =
      other.replies ((requests.filter fun request => request.1 = id).map Prod.snd) := by
  induction requests generalizing server other with
  | nil => rfl
  | cons first requests ih =>
      obtain ⟨sender, request⟩ := first
      have hrestReads := fun later hlater => hreads later (List.mem_cons_of_mem _ hlater)
      have hrestWrites := fun later hlater => hwrites later (List.mem_cons_of_mem _ hlater)
      by_cases hsender : sender = id
      · have hreply : (server.process request).reply = (other.process request).reply := by
          apply reply_congr
          intro key hkey
          exact hlookup key (hreads _ List.mem_cons_self hsender key hkey)
        have hnext : ∀ key, own key → (server.process request).server.keyspace.lookup? key =
            (other.process request).server.keyspace.lookup? key := by
          intro key hown
          rw [lookup_process, lookup_process, hlookup key hown]
        have hrest := ih hnext hrestReads hrestWrites
        simp only [Exchange.on, answerAll, List.filter_cons, hsender, decide_true, if_true,
          List.map_cons, replies, List.cons.injEq]
        exact ⟨hreply, hrest⟩
      · have hnext : ∀ key, own key → (server.process request).server.keyspace.lookup? key =
            other.keyspace.lookup? key := by
          intro key hown
          have huntouched : request.effect? key = none := by
            apply Value.effect_of_not_mem
            intro hkey
            exact hwrites _ List.mem_cons_self hsender key hkey hown
          rw [lookup_process, huntouched]
          exact hlookup key hown
        have hrest := ih hnext hrestReads hrestWrites
        simp only [Exchange.on, answerAll, List.filter_cons, hsender, decide_false,
          Bool.false_eq_true, if_false]
        exact hrest

end Server

/-! ## The order of requests on different connections -/

namespace Exchange

variable {exchanges others : List Exchange} {key : Bytes}

/-- Exchanges with requests that do nothing to a key can be left out. -/
theorem lastEffect_filter {keep : Exchange → Bool}
    (hnone : ∀ exchange ∈ exchanges, keep exchange = false →
      exchange.request.effect? key = none) :
    Value.lastEffect? ((exchanges.filter keep).map Exchange.request) key =
      Value.lastEffect? (exchanges.map Exchange.request) key := by
  have heffects : ((exchanges.filter keep).map Exchange.request).filterMap
      (fun request => request.effect? key) =
        (exchanges.map Exchange.request).filterMap fun request => request.effect? key := by
    induction exchanges with
    | nil => rfl
    | cons exchange exchanges ih =>
        have hrest := ih fun later hlater => hnone later (List.mem_cons_of_mem _ hlater)
        cases hkeep : keep exchange with
        | true => simp [hkeep, List.filterMap_cons, hrest]
        | false =>
            have hthis := hnone exchange List.mem_cons_self hkeep
            simp [hkeep, hthis, hrest]
  rw [Value.lastEffect?, heffects]
  rfl

/-- An exchange is among those on its connection. -/
theorem mem_on {exchange : Exchange} {id : Nat} :
    exchange ∈ on id exchanges ↔ exchange ∈ exchanges ∧ exchange.id = id := by
  simp [on]

/-- If no key is written on two connections, the last effect on a key depends only on what
has been exchanged on each connection. -/
theorem lastEffect_congr (hon : ∀ id, on id exchanges = on id others)
    (hwrites : ∀ exchange ∈ exchanges, ∀ other ∈ exchanges, exchange.id ≠ other.id →
      key ∈ exchange.request.writtenKeys → key ∉ other.request.writtenKeys)
    (keep : Exchange → Bool) :
    Value.lastEffect? ((exchanges.filter keep).map Exchange.request) key =
      Value.lastEffect? ((others.filter keep).map Exchange.request) key := by
  have hmem : ∀ exchange, exchange ∈ others → exchange ∈ exchanges := by
    intro exchange hother
    have hthere : exchange ∈ on exchange.id exchanges := by
      rw [hon]
      exact mem_on.mpr ⟨hother, rfl⟩
    exact (mem_on.mp hthere).1
  by_cases hwritten : ∃ exchange ∈ exchanges, key ∈ exchange.request.writtenKeys
  · -- Only the connection on which the key is written matters.
    obtain ⟨writer, hwriter, hkey⟩ := hwritten
    have hothers : ∀ exchange ∈ exchanges, exchange.id ≠ writer.id →
        exchange.request.effect? key = none := by
      intro exchange hexchange hid
      exact Value.effect_of_not_mem (hwrites writer hwriter exchange hexchange (Ne.symm hid) hkey)
    have honly : ∀ list : List Exchange, (∀ exchange ∈ list, exchange ∈ exchanges) →
        Value.lastEffect? ((list.filter keep).map Exchange.request) key =
          Value.lastEffect? (((on writer.id list).filter keep).map Exchange.request) key := by
      intro list hlist
      rw [on, List.filter_comm]
      symm
      apply lastEffect_filter
      intro exchange hexchange hid
      exact hothers exchange (hlist exchange (List.mem_filter.mp hexchange).1) (by simpa using hid)
    rw [honly exchanges fun _ hexchange => hexchange, honly others hmem, hon]
  · have hnone : ∀ list : List Exchange, (∀ exchange ∈ list, exchange ∈ exchanges) →
        Value.lastEffect? ((list.filter keep).map Exchange.request) key = none := by
      intro list hlist
      have hnothing : ((list.filter keep).map Exchange.request).filterMap
          (fun request => request.effect? key) = [] := by
        apply List.filterMap_eq_nil_iff.mpr
        intro request hrequest
        obtain ⟨exchange, hexchange, rfl⟩ := List.mem_map.mp hrequest
        apply Value.effect_of_not_mem
        intro hkey
        exact hwritten ⟨exchange, hlist exchange (List.mem_filter.mp hexchange).1, hkey⟩
      rw [Value.lastEffect?, hnothing]
      rfl
    rw [hnone exchanges fun _ hexchange => hexchange, hnone others hmem]

end Exchange

end DurableStore
