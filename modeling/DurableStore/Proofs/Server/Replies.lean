import DurableStore.Proofs.Server.Failures
import DurableStore.Proofs.Text.Lines
import DurableStore.Proofs.Wire.RoundTrip
import DurableStore.Wire.Receiver

/-!
# Replies can be written

A reply is an error line, a status, a count, the null, or a payload that a
request has brought into the keyspace.  Errors and statuses are lines, and a
count is at most the number of arguments of a request.  As long as the keyspace
holds nothing but payloads, every reply thus has a written form; and requests
bring nothing else into it.

Main results:

- Definition `Keyspace.Plain`: all cells hold payloads.
- Theorem `Keyspace.Plain.dispatch`: a command preserves this, and its reply can
  be written.
- Theorem `Server.Ready.process`: so does answering a request.
- Theorem `Server.process_of_parse_error`: a value that is no request is
  answered with an error and changes nothing.
- Theorem `Reply.encodeFault_protocolError`: the last answer on a connection can
  be written, too.
-/

namespace DurableStore

open Text

/-! ## Error lines and statuses -/

/-- The wording of the failure to receive a value holds no line break. -/
theorem Received.oneLine_cutOffMessage (pending : Nat) : OneLine (cutOffMessage pending) := by
  unfold cutOffMessage
  simp only [oneLine_append, oneLine_nat, and_true]
  decide +kernel

namespace Reply

/-- An error whose wording holds no line break can be written. -/
theorem encodeFault_error {wording : String} (hline : OneLine wording) :
    Value.encodeFault? (.error (Bytes.ofString wording)) = none := by
  rw [Value.encodeFault?, if_pos (isLine_ofString hline)]

/-- A status whose wording holds no line break can be written. -/
theorem encodeFault_simple {wording : String} (hline : OneLine wording) :
    Value.encodeFault? (.simple (Bytes.ofString wording)) = none := by
  rw [Value.encodeFault?, if_pos (isLine_ofString hline)]

/-- The answer to a value that is no request can be written. -/
theorem encodeFault_invalidCommand (error : CommandError) :
    (invalidCommand error).encodeFault? = none := by
  refine encodeFault_error ?_
  rw [oneLine_append]
  exact ⟨by decide +kernel, error.oneLine_message⟩

/-- The last answer on a connection can be written if its reason holds no line
break. -/
theorem encodeFault_protocolError {reason : String} (hline : OneLine reason) :
    (protocolError reason).encodeFault? = none := by
  refine encodeFault_error ?_
  rw [oneLine_append]
  exact ⟨by decide +kernel, hline⟩

/-- The answers to a wrong number of arguments and to a wrong argument, and
those that are the same for all requests, can be written. -/
theorem encodeFault_fixed (verb : Verb) :
    (wrongArity verb).encodeFault? = none ∧ (invalidArgument verb).encodeFault? = none ∧
      unknown.encodeFault? = none ∧ ok.encodeFault? = none ∧ pong.encodeFault? = none := by
  refine ⟨encodeFault_error ?_, encodeFault_error ?_, encodeFault_error ?_,
    encodeFault_simple ?_, encodeFault_simple ?_⟩
  · cases verb <;> decide +kernel
  · cases verb <;> decide +kernel
  · decide +kernel
  · decide +kernel
  · decide +kernel

end Reply

/-! ## The keyspace -/

/-- Only payloads have been stored. -/
def Keyspace.Plain (keyspace : Keyspace) : Prop :=
  ∀ entry ∈ keyspace.entries, ∃ payload : Bytes, entry.2 = some (.bulk payload)

namespace Keyspace.Plain

variable {keyspace : Keyspace}

/-- Nothing has been stored in the empty keyspace. -/
theorem empty : Keyspace.empty.Plain := by
  intro entry hentry
  cases hentry

/-- A payload is stored. -/
theorem put (hplain : keyspace.Plain) (key payload : Bytes) :
    (keyspace.put key (some (.bulk payload))).Plain := by
  intro entry hentry
  rcases Entry.mem_put hentry with rfl | hold
  · exact ⟨payload, rfl⟩
  · exact hplain entry hold

/-- A key is removed. -/
theorem erase (hplain : keyspace.Plain) (key : Bytes) : (keyspace.erase key).Plain :=
  fun entry hentry => hplain entry (List.mem_filter.mp hentry).1

/-- Keys are removed, no more of them than were named. -/
theorem deleteMany (hplain : keyspace.Plain) (keys : List Bytes) :
    (keyspace.deleteMany keys).1 ≤ keys.length ∧ (keyspace.deleteMany keys).2.Plain := by
  induction keys generalizing keyspace with
  | nil => exact ⟨Nat.le_refl _, hplain⟩
  | cons key keys ih =>
      rcases ih (hplain.erase key) with ⟨hcount, hlater⟩
      have hone := Bool.toNat_le (keyspace.delete key).1
      rw [Keyspace.deleteMany, List.length_cons]
      exact ⟨Nat.add_le_add hcount hone, hlater⟩

/-- The value of a key is a payload. -/
theorem get (hplain : keyspace.Plain) {key : Bytes} {value : Value}
    (hget : keyspace.get? key = some value) : ∃ payload : Bytes, value = .bulk payload := by
  have hfind : ∀ (entries : List Entry) (cell : Cell),
      Entry.find? key entries = some cell → ∃ entry ∈ entries, entry.2 = cell := by
    intro entries cell hcell
    induction entries with
    | nil => cases hcell
    | cons entry entries ih =>
        rw [Entry.find?] at hcell
        split at hcell
        · cases hcell
          exact ⟨entry, List.mem_cons_self, rfl⟩
        · rcases ih hcell with ⟨other, hother, hsame⟩
          exact ⟨other, List.mem_cons_of_mem _ hother, hsame⟩
  rcases hfind _ _ (Option.join_eq_some_iff.mp hget) with ⟨entry, hentry, hcell⟩
  rcases hplain entry hentry with ⟨payload, hpayload⟩
  rw [hcell] at hpayload
  cases hpayload
  exact ⟨payload, rfl⟩

/-! ## Commands -/

/-- The answer to a ping can be written. -/
theorem encodeFault_ping (payloads : List Bytes) :
    (ping (payloads.map .bulk)).encodeFault? = none := by
  rcases Reply.encodeFault_fixed .ping with ⟨-, -, -, -, hpong⟩
  unfold ping
  split
  · exact hpong
  · rw [Value.payloads_eq_some.mpr rfl]
    rfl

/-- The value of a key can be written. -/
theorem encodeFault_fetch (hplain : keyspace.Plain) (args : List Value) :
    (keyspace.fetch args).encodeFault? = none := by
  rcases Reply.encodeFault_fixed .get with ⟨harity, hargument, -⟩
  unfold fetch
  split
  · split
    · rename_i key hkey
      cases hget : keyspace.get? key with
      | none => rfl
      | some value =>
          rcases hplain.get hget with ⟨payload, rfl⟩
          rfl
    · exact hargument
  · exact harity

/-- Setting a key stores a payload, and the answer can be written. -/
theorem store (hplain : keyspace.Plain) (payloads : List Bytes) :
    (keyspace.store (payloads.map .bulk)).1.encodeFault? = none ∧
      (keyspace.store (payloads.map .bulk)).2.Plain := by
  rcases Reply.encodeFault_fixed .set with ⟨harity, hargument, -, hok, -⟩
  unfold Keyspace.store
  split
  · rename_i arg value hargs
    have hvalue : value ∈ payloads.map Value.bulk := by
      rw [hargs]
      simp
    rcases List.mem_map.mp hvalue with ⟨payload, -, rfl⟩
    split
    · rename_i key hkey
      exact ⟨hok, hplain.put key payload⟩
    · exact ⟨hargument, hplain⟩
  · exact ⟨harity, hplain⟩

/-- Removing keys stores nothing, and their number can be written unless 64 bits
cannot count the arguments. -/
theorem remove (hplain : keyspace.Plain) {payloads : List Bytes}
    (hcount : payloads.length < 2 ^ 63) :
    (keyspace.remove (payloads.map .bulk)).1.encodeFault? = none ∧
      (keyspace.remove (payloads.map .bulk)).2.Plain := by
  unfold Keyspace.remove
  split
  · exact ⟨(Reply.encodeFault_fixed .del).1, hplain⟩
  · rw [Value.payloads_eq_some.mpr rfl]
    rcases hplain.deleteMany payloads with ⟨hle, hlater⟩
    refine ⟨?_, hlater⟩
    have hfits : Numeral.fits64 ((keyspace.deleteMany payloads).1 : Int) = true := by
      simp only [Numeral.fits64, Bool.and_eq_true, decide_eq_true_eq]
      omega
    simp only [Value.encodeFault?, hfits, if_true]

/-- A command preserves a keyspace of payloads, and its reply can be written
unless it has more arguments than 64 bits can count. -/
theorem run (hplain : keyspace.Plain) (verb : Verb) {payloads : List Bytes}
    (hcount : payloads.length < 2 ^ 63) :
    (keyspace.run verb (payloads.map .bulk)).1.encodeFault? = none ∧
      (keyspace.run verb (payloads.map .bulk)).2.Plain := by
  cases verb with
  | ping => exact ⟨encodeFault_ping payloads, hplain⟩
  | get => exact ⟨hplain.encodeFault_fetch _, hplain⟩
  | set => exact hplain.store payloads
  | del => exact hplain.remove hcount

/-- So does the command of any name. -/
theorem dispatch (hplain : keyspace.Plain) (name : Bytes) {payloads : List Bytes}
    (hcount : payloads.length < 2 ^ 63) :
    (keyspace.dispatch name (payloads.map .bulk)).1.encodeFault? = none ∧
      (keyspace.dispatch name (payloads.map .bulk)).2.Plain := by
  unfold Keyspace.dispatch
  split
  · exact hplain.run _ hcount
  · exact ⟨(Reply.encodeFault_fixed .ping).2.2.1, hplain⟩

end Keyspace.Plain

/-! ## Requests -/

namespace Server

/-- A value that is no request is answered with an error and changes nothing. -/
theorem process_of_parse_error {request : Value} {error : CommandError}
    (hparse : Command.parse request = .error error) (server : Server) :
    server.process request = ⟨Reply.invalidCommand error, server, [], none⟩ := by
  simp only [process, hparse]

/-- A request runs its command, and besides concerns only the log and the
counters. -/
theorem process_of_parse_ok {request : Value} {command : Command}
    (hparse : Command.parse request = .ok command) (server : Server) :
    (server.process request).reply =
        (server.keyspace.dispatch command.name command.args).1 ∧
      (server.process request).server.keyspace =
        (server.keyspace.dispatch command.name command.args).2 ∧
      (server.process request).server.limits = server.limits := by
  simp only [process, hparse, perform]
  split
  · obtain ⟨hkeyspace, hlimits, hreply⟩ := record_frame
      { server with
        keyspace := (server.keyspace.dispatch command.name command.args).2
        commandCount := server.commandCount + 1 }
      request (server.keyspace.dispatch command.name command.args).1
    exact ⟨hreply, hkeyspace, hlimits⟩
  · exact ⟨rfl, rfl, rfl⟩

/-- A server of the given limits, which do not allow a request of more
arguments than 64 bits can count, holds only payloads, and its log is not half closed. -/
structure Ready (limits : Limits) (server : Server) : Prop where
  limits_eq : server.limits = limits
  countable : limits.array < 2 ^ 63
  plain : server.keyspace.Plain
  whole : server.logIsHalfClosed = false

/-- Answering a value keeps a server ready, and the reply can be written. -/
theorem Ready.process {limits : Limits} {server : Server} (hready : server.Ready limits)
    {request : Value} {room : Nat} (hfits : request.Fits limits room) :
    (server.process request).reply.encodeFault? = none ∧
      (server.process request).server.Ready limits := by
  have hwhole := (server.logIsHalfClosed_process request).trans hready.whole
  cases hparse : Command.parse request with
  | error error =>
      rw [process_of_parse_error hparse]
      exact ⟨Reply.encodeFault_invalidCommand error, hready⟩
  | ok command =>
      rcases process_of_parse_ok hparse server with ⟨hreply, hkeyspace, hlimits⟩
      rcases Command.parse_eq_ok.mp hparse with ⟨name, payloads, rfl, rfl⟩
      have hcount : payloads.length < 2 ^ 63 := by
        rcases hfits with ⟨-, ⟨hlength, -⟩, -⟩
        rw [List.length_cons, List.length_map] at hlength
        have := hready.countable
        omega
      rcases hready.plain.dispatch name hcount with ⟨hwritten, hplain⟩
      rw [hreply]
      refine ⟨hwritten, hlimits.trans hready.limits_eq, hready.countable, ?_, hwhole⟩
      rw [hkeyspace]
      exact hplain

end Server

end DurableStore
