import DurableStore.Proofs.Server.Replies
import DurableStore.Proofs.Wire.Receiving
import DurableStore.Server.Connection

/-!
# Serving a connection

The turns that the handler of a connection takes on the octets it has received
amount to their division: each record is a request that is answered, one after
the other, and the rest decides whether the connection goes on.

Main results:

- Definition `Server.answerAll`: requests that are answered one after the other.
- Theorem `Server.Ready.answerAll`: all replies to them can be written.
- Definition `lastReply?`: the last answer on a connection, if there is one.
- Theorem `Server.serve_spec`: serving a connection answers the requests among
  the octets received, and then gives the last answer, if there is one.
-/

namespace DurableStore

/-! ## Requests one after the other -/

/-- A request on a connection, and the reply to it. -/
structure Exchange where
  id : Nat
  request : Value
  reply : Value

namespace Exchange

/-- The exchanges on a connection. -/
def on (id : Nat) (exchanges : List Exchange) : List Exchange :=
  exchanges.filter fun exchange => exchange.id = id

/-- The exchanges on a connection and later ones. -/
theorem on_append (id : Nat) (exchanges later : List Exchange) :
    on id (exchanges ++ later) = on id exchanges ++ on id later :=
  List.filter_append ..

end Exchange

namespace Server

/-- Answer requests one after the other, each of which comes with its
connection. -/
def answerAll (server : Server) : List (Nat × Value) → List Exchange × Server
  | [] => ([], server)
  | (id, request) :: later =>
      let rest := (server.process request).server.answerAll later
      (⟨id, request, (server.process request).reply⟩ :: rest.1, rest.2)

/-- Later requests are answered by the server that the others have left. -/
theorem answerAll_append (server : Server) (requests later : List (Nat × Value)) :
    server.answerAll (requests ++ later) =
      ((server.answerAll requests).1 ++ ((server.answerAll requests).2.answerAll later).1,
        ((server.answerAll requests).2.answerAll later).2) := by
  induction requests generalizing server with
  | nil => rfl
  | cons first requests ih =>
      simp only [List.cons_append, answerAll, ih]

/-- The requests are those that were asked, on the connections on which they
were asked. -/
theorem requests_answerAll (server : Server) (requests : List (Nat × Value)) :
    (server.answerAll requests).1.map (fun exchange => (exchange.id, exchange.request)) =
      requests := by
  induction requests generalizing server with
  | nil => rfl
  | cons first requests ih => simp only [answerAll, List.map_cons, ih]

/-- Every exchange is about a request that was asked. -/
theorem mem_answerAll {server : Server} {requests : List (Nat × Value)} {exchange : Exchange}
    (hexchange : exchange ∈ (server.answerAll requests).1) :
    (exchange.id, exchange.request) ∈ requests := by
  rw [← server.requests_answerAll requests]
  exact List.mem_map_of_mem hexchange

/-- The requests on a single connection are those that were asked. -/
theorem map_request_answerAll (server : Server) (id : Nat) (requests : List Value) :
    (server.answerAll (requests.map (id, ·))).1.map Exchange.request = requests := by
  have hrequests := congrArg (List.map Prod.snd) (server.requests_answerAll (requests.map (id, ·)))
  rw [List.map_map, List.map_map] at hrequests
  exact hrequests.trans (List.map_id requests)

/-- The replies to requests that are answered one after the other. -/
def replies (server : Server) : List Value → List Value
  | [] => []
  | request :: later =>
      (server.process request).reply :: (server.process request).server.replies later

/-- The replies do not depend on the connections on which they are sent. -/
theorem replies_answerAll (server : Server) (requests : List (Nat × Value)) :
    (server.answerAll requests).1.map Exchange.reply = server.replies (requests.map Prod.snd) := by
  induction requests generalizing server with
  | nil => rfl
  | cons first requests ih => simp only [answerAll, List.map_cons, replies, ih]

/-- The exchanges on the only connection with requests are all. -/
theorem on_answerAll (server : Server) (id other : Nat) (requests : List Value) :
    Exchange.on other (server.answerAll (requests.map (id, ·))).1 =
      if id = other then (server.answerAll (requests.map (id, ·))).1 else [] := by
  have hid : ∀ exchange ∈ (server.answerAll (requests.map (id, ·))).1, exchange.id = id := by
    intro exchange hexchange
    rcases List.mem_map.mp (mem_answerAll hexchange) with ⟨request, -, hrequest⟩
    exact (congrArg Prod.fst hrequest).symm
  unfold Exchange.on
  by_cases hsame : id = other
  · rw [if_pos hsame]
    refine List.filter_eq_self.mpr fun exchange hexchange => ?_
    simpa [hid exchange hexchange] using hsame
  · rw [if_neg hsame]
    refine List.filter_eq_nil_iff.mpr fun exchange hexchange => ?_
    simpa [hid exchange hexchange] using hsame

/-- Requests that fit keep a server ready, and all replies to them can be
written. -/
theorem Ready.answerAll {limits : Limits} {server : Server} (hready : server.Ready limits)
    {requests : List (Nat × Value)}
    (hfits : ∀ request ∈ requests, request.2.Fits limits limits.depth) :
    (∀ exchange ∈ (server.answerAll requests).1, exchange.reply.encodeFault? = none) ∧
      (server.answerAll requests).2.Ready limits := by
  induction requests generalizing server with
  | nil =>
      refine ⟨fun exchange hexchange => ?_, hready⟩
      cases hexchange
  | cons first requests ih =>
      rcases hready.process (hfits first List.mem_cons_self) with ⟨hwritten, hnext⟩
      obtain ⟨hlater, hlast⟩ :=
        ih hnext fun request hrequest => hfits request (List.mem_cons_of_mem _ hrequest)
      refine ⟨fun exchange hexchange => ?_, hlast⟩
      rcases List.mem_cons.mp hexchange with rfl | hrest
      · exact hwritten
      · exact hlater exchange hrest

end Server

/-! ## The last answer -/

/-- Why no further value can be found behind the octets of values, if there is
a reason other than that more octets are needed. -/
def lastWord? (limits : Limits) (closed : Bool) (rest : Bytes) : Option String :=
  match obstacle? limits rest with
  | some error => some error.message
  | none =>
      if closed && !rest.isEmpty then some (Received.cutOffMessage rest.length) else none

/-- The last answer on a connection, if there is one. -/
def lastReply? (limits : Limits) (closed : Bool) (rest : Bytes) : Option Value :=
  (lastWord? limits closed rest).map Reply.protocolError

variable {limits : Limits}

/-- There is a last answer exactly if the rest is malformed, or a stream has
ended inside a value. -/
theorem lastReply_isSome {closed : Bool} {rest : Bytes} :
    (lastReply? limits closed rest).isSome = true ↔
      (∃ error, obstacle? limits rest = some error) ∨ closed = true ∧ rest ≠ [] := by
  unfold lastReply? lastWord?
  rw [Option.isSome_map]
  cases obstacle? limits rest with
  | some error => simp
  | none => cases closed <;> cases rest <;> simp

/-- The last answer can be written. -/
theorem encodeFault_lastReply {closed : Bool} {rest : Bytes} {reply : Value}
    (hreply : lastReply? limits closed rest = some reply) : reply.encodeFault? = none := by
  rcases Option.map_eq_some_iff.mp hreply with ⟨reason, hreason, rfl⟩
  refine Reply.encodeFault_protocolError ?_
  unfold lastWord? at hreason
  split at hreason
  · cases hreason
    exact DecodeError.oneLine_message _
  · split at hreason
    · cases hreason
      exact Received.oneLine_cutOffMessage _
    · cases hreason

/-! ## Turns -/

namespace Connection

variable {connection : Connection}

/-- A value that can be written is sent. -/
theorem reply_spec {value : Value} (hwritten : value.encodeFault? = none)
    (hdrain : connection.drainFails = false) :
    connection.reply value = ({ connection with sent := value.wire :: connection.sent }, []) := by
  simp [reply, write, Value.encode, hwritten, hdrain]

/-- A last answer that can be written is sent, and ends the connection. -/
theorem dismiss_spec {reason : String}
    (hwritten : (Reply.protocolError reason).encodeFault? = none)
    (hdrain : connection.drainFails = false) :
    connection.dismiss reason =
      ({ connection with
          sent := (Reply.protocolError reason).wire :: connection.sent
          isOpen := false }, []) := by
  rw [dismiss, reply_spec hwritten hdrain]
  rfl

/-- The connection when replies have been sent and no further value is found on
its stream. -/
def conclude (limits : Limits) (left : Stream) (replies : List Value) (connection : Connection) :
    Connection :=
  { connection with
    stream := left
    sent :=
      ((replies ++ (lastReply? limits left.closed left.octets).toList).map Value.wire).reverse ++
        connection.sent
    isOpen := !left.closed && (lastReply? limits left.closed left.octets).isNone }

end Connection

namespace Server

variable {server : Server} {connection : Connection}

/-- A connection that has ended is left as it is. -/
theorem serveWithin_closed (hclosed : connection.isOpen = false) (fuel : Nat)
    (notices : List Notice) (server : Server) :
    serveWithin fuel notices server connection = ⟨server, connection, notices⟩ := by
  cases fuel with
  | zero => rfl
  | succ fuel => simp [serveWithin, turn, hclosed]

/-- A handler that finds a record answers it. -/
theorem turn_record (hready : server.Ready limits) (hopen : connection.isOpen = true)
    (hdrain : connection.drainFails = false) (hsound : connection.stream.Sound limits)
    {record : Record} {rest : Bytes} (hholds : record.Holds limits)
    (hoctets : connection.stream.octets = record.octets ++ rest) :
    ∃ left : Stream, left.octets = rest ∧ left.closed = connection.stream.closed ∧
      left.Sound limits ∧
      server.turn connection =
        ⟨.served record.value (server.process record.value).reply,
          (server.process record.value).server,
          { connection with
            stream := left
            sent := (server.process record.value).reply.wire :: connection.sent },
          (server.process record.value).notices⟩ := by
  obtain ⟨left, hnext, hleft, hclosed, hsafe⟩ :=
    hsound.next (show 0 < Settings.readSize by decide)
  rw [hoctets, judge_record hholds] at hnext hleft
  rcases hready.process (Value.fits_of_read (hholds [])) with ⟨hwritten, -⟩
  refine ⟨left, hleft, hclosed, hsafe, ?_⟩
  unfold turn
  rw [hready.limits_eq, hnext, hopen]
  simp only [Received.ofJudgement, Bool.not_true, Bool.false_eq_true, if_false]
  rw [Connection.respond_process hready.whole, Connection.reply_spec hwritten (by exact hdrain),
    List.append_nil]

/-- A handler that finds no record gives the last answer if there is one, and
ends the connection then or if the stream has ended. -/
theorem serveWithin_rest (hready : server.Ready limits) (hopen : connection.isOpen = true)
    (hdrain : connection.drainFails = false) (hsound : connection.stream.Sound limits)
    {data rest : Bytes} {records : List Record} (hsplits : Splits limits data records rest)
    (hoctets : connection.stream.octets = rest) (fuel : Nat) (notices : List Notice) :
    ∃ left : Stream, left.octets = rest ∧ left.closed = connection.stream.closed ∧
      left.Sound limits ∧
      serveWithin (fuel + 1) notices server connection =
        ⟨server, connection.conclude limits left [], notices⟩ := by
  obtain ⟨left, hnext, hleft, hclosed, hsafe⟩ :=
    hsound.next (show 0 < Settings.readSize by decide)
  rw [hoctets, judge_rest hsplits] at hnext hleft
  refine ⟨left, hleft, hclosed, hsafe, ?_⟩
  have hlast : ∀ reply, lastReply? limits left.closed rest = some reply →
      reply.encodeFault? = none := fun reply => encodeFault_lastReply
  unfold serveWithin turn Connection.conclude
  rw [hready.limits_eq, hnext, hopen, hleft, ← hclosed]
  unfold lastReply? lastWord? at hlast ⊢
  cases hobstacle : obstacle? limits rest with
  | some error =>
      simp only [hobstacle, Option.map_some, Option.some.injEq, forall_eq'] at hlast
      simp only [Option.map_some, Option.getD_some, Received.ofJudgement, Bool.not_true,
        Bool.false_eq_true, if_false]
      rw [Connection.dismiss_spec hlast (by exact hdrain), serveWithin_closed rfl]
      simp
  | none =>
      simp only [hobstacle] at hlast
      cases hend : left.closed with
      | false => simp [Received.ofJudgement]
      | true =>
          cases rest with
          | nil =>
              simp only [Option.map_none, Option.getD_none, Received.ofJudgement, Bool.not_true,
                Bool.false_eq_true, if_false, List.isEmpty_nil, if_true, Connection.close]
              rw [serveWithin_closed rfl]
              simp
          | cons octet rest =>
              simp only [hend, List.isEmpty_cons, Bool.not_false, Bool.and_self, if_true,
                Option.map_some, Option.some.injEq, forall_eq'] at hlast
              simp only [Option.map_none, Option.getD_none, Received.ofJudgement, Bool.not_true,
                Bool.false_eq_true, if_false, List.isEmpty_cons]
              rw [Connection.dismiss_spec hlast (by exact hdrain), serveWithin_closed rfl]
              simp

/-- The handler of a connection answers the requests among the octets received,
and then gives the last answer, if there is one. -/
theorem serveWithin_spec (id : Nat) (connection : Connection) {records : List Record}
    {rest : Bytes} {fuel : Nat} (hready : server.Ready limits) (hopen : connection.isOpen = true)
    (hdrain : connection.drainFails = false) (hsound : connection.stream.Sound limits)
    (hsplits : Splits limits connection.stream.octets records rest)
    (hfuel : records.length < fuel) (notices : List Notice) :
    ∃ left : Stream, left.octets = rest ∧ left.closed = connection.stream.closed ∧
      left.Sound limits ∧ ∃ notices',
      serveWithin fuel notices server connection =
        ⟨(server.answerAll ((records.map Record.value).map (id, ·))).2,
          connection.conclude limits left
            ((server.answerAll ((records.map Record.value).map (id, ·))).1.map Exchange.reply),
          notices'⟩ := by
  induction records generalizing server connection fuel notices with
  | nil =>
      rcases Nat.exists_eq_add_of_lt hfuel with ⟨fuel, rfl⟩
      have hoctets := hsplits.partition
      rw [Record.joined_nil, List.nil_append] at hoctets
      rw [List.length_nil, Nat.zero_add]
      obtain ⟨left, hleft, hclosed, hsafe, hserve⟩ :=
        serveWithin_rest hready hopen hdrain hsound hsplits hoctets fuel notices
      exact ⟨left, hleft, hclosed, hsafe, notices, hserve⟩
  | cons record records ih =>
      rw [List.length_cons] at hfuel
      obtain ⟨fuel, rfl⟩ : ∃ fuel', fuel = fuel' + 1 := ⟨fuel - 1, by omega⟩
      have hholds := hsplits.holds record List.mem_cons_self
      have hoctets := hsplits.partition
      rw [Record.joined_cons, List.append_assoc] at hoctets
      obtain ⟨next, hnext, hnextClosed, hnextSound, hturn⟩ :=
        turn_record hready hopen hdrain hsound hholds hoctets
      rw [hoctets] at hsplits
      rcases hsplits.head_eq hholds with ⟨others, hothers, hmore⟩
      cases hothers
      rw [← hnext] at hmore
      rcases hready.process (Value.fits_of_read (hholds [])) with ⟨-, hlater⟩
      -- The turns that follow begin with the reply sent and the record gone.
      obtain ⟨left, hleft, hclosed, hsafe, notices', hserve⟩ :=
        ih
          { connection with
            stream := next
            sent := (server.process record.value).reply.wire :: connection.sent }
          hlater hopen hdrain hnextSound hmore (Nat.lt_of_succ_lt_succ hfuel)
          (notices ++ (server.process record.value).notices)
      refine ⟨left, hleft, hclosed.trans hnextClosed, hsafe, notices', ?_⟩
      rw [serveWithin, hturn]
      simp only [hserve, List.map_cons, answerAll, Connection.conclude, List.cons_append,
        List.reverse_cons, List.append_assoc, List.nil_append]

/-- Serving a connection takes turns enough for all octets received. -/
theorem serve_spec (id : Nat) {records : List Record} {rest : Bytes}
    (hready : server.Ready limits) (hopen : connection.isOpen = true)
    (hdrain : connection.drainFails = false) (hsound : connection.stream.Sound limits)
    (hsplits : Splits limits connection.stream.octets records rest) :
    ∃ left : Stream, left.octets = rest ∧ left.closed = connection.stream.closed ∧
      left.Sound limits ∧ ∃ notices,
      server.serve connection =
        ⟨(server.answerAll ((records.map Record.value).map (id, ·))).2,
          connection.conclude limits left
            ((server.answerAll ((records.map Record.value).map (id, ·))).1.map Exchange.reply),
          notices⟩ := by
  refine serveWithin_spec id connection hready hopen hdrain hsound hsplits ?_ []
  have hlength := hsplits.length_le
  rw [Stream.octets, List.length_append] at hlength
  rw [Stream.size]
  omega

end Server

end DurableStore
