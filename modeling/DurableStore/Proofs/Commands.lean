import DurableStore.Proofs.Log.Sessions
import DurableStore.Proofs.Number.Numerals
import DurableStore.Proofs.Requests
import Mathlib.Data.List.Forall2
import Mathlib.Data.Set.List

/-!
# Commands on their way

An application gives a command as a name and plain arguments.  It travels as a request,
which is an array of bulk strings, and reaches its handler as a name and values that
remember the request; the log keeps its array form.  On this way the octets of the name and
of the arguments stay the same.  Only a text with a stray octet cannot set out: an
application has to give valid texts, while the name of a request that has arrived may hold
any octets, and goes to the log with them.

Main results:

- Definition `Argument.CarriedBy`: the octets that carry a plain argument.
- Theorem `Command.exists_request_iff`: there is a request unless a text holds a stray
  octet.
- Structure `Command.Sent` and theorem `Command.sent`: what becomes of a command that is
  given by a name and plain arguments.
- Theorem `Command.exists_parse_iff`: which values are requests.
- Structure `Command.Recorded` and theorem `Command.recorded`: what a log makes of a
  request.
- Theorem `Command.lossless`: a command keeps its octets all the way.
-/

namespace DurableStore

/-! ## Plain arguments and their octets -/

namespace Argument

/-- Octets carry a plain argument. -/
inductive CarriedBy : Argument → Bytes → Prop
  /-- A text is carried by the UTF-8 form of the string that it is. -/
  | text (s : String) : CarriedBy (.text (Bytes.ofString s)) (Bytes.ofString s)
  /-- Octets are carried as they are. -/
  | bytes (given : Bytes) : CarriedBy (.bytes given) given
  /-- An integer is carried by its decimal digits. -/
  | integer (number : Int) : CarriedBy (.integer number) (Bytes.ofString (toString number))

variable {arg : Argument} {args : List Argument} {octets : Bytes} {payloads : List Bytes}

/-- The payload of an argument is made of the octets that carry it. -/
theorem payload_eq_ok : arg.payload = .ok octets ↔ arg.CarriedBy octets := by
  cases arg with
  | text given =>
      rw [payload, Text.validOctets_eq_ok]
      constructor
      · rintro ⟨rfl, s, rfl⟩
        exact .text s
      · intro hcarried
        cases hcarried with
        | text s => exact ⟨rfl, s, rfl⟩
  | bytes given =>
      rw [payload, Except.ok.injEq]
      constructor
      · rintro rfl
        exact .bytes given
      · intro hcarried
        cases hcarried
        rfl
  | integer number =>
      rw [payload, Except.ok.injEq, ← Numeral.ofString_int]
      constructor
      · rintro rfl
        exact .integer number
      · intro hcarried
        cases hcarried
        rfl

/-- The payloads of several arguments are made of the octets that carry them. -/
theorem mapM_payload_eq_ok :
    args.mapM payload = .ok payloads ↔ List.Forall₂ CarriedBy args payloads := by
  induction args generalizing payloads with
  | nil => simp [pure, Except.pure, eq_comm]
  | cons arg args ih =>
      rw [List.mapM_cons, List.forall₂_cons_left_iff]
      simp only [← payload_eq_ok, ← ih]
      cases arg.payload with
      | error run => simp [bind, Except.bind]
      | ok octets =>
          cases args.mapM payload with
          | error run => simp [bind, Except.bind]
          | ok others => simp [bind, Except.bind, pure, Except.pure, eq_comm]

/-- An argument is carried by some octets unless it is a text with a stray octet. -/
theorem exists_carriedBy_iff :
    (∃ octets, arg.CarriedBy octets) ↔ ∀ text, arg = .text text → ¬ Text.HoldsStray text := by
  constructor
  · rintro ⟨octets, hcarried⟩ text rfl
    cases hcarried with
    | text s => exact Text.not_holdsStray_iff.mpr ⟨s, rfl⟩
  · intro hvalid
    cases arg with
    | text given =>
        obtain ⟨s, rfl⟩ := Text.not_holdsStray_iff.mp (hvalid given rfl)
        exact ⟨_, .text s⟩
    | bytes given => exact ⟨_, .bytes given⟩
    | integer number => exact ⟨_, .integer number⟩

/-- Arguments are carried by some octets if each of them is. -/
theorem exists_forall_carriedBy_iff :
    (∃ payloads, List.Forall₂ CarriedBy args payloads) ↔
      ∀ arg ∈ args, ∃ octets, arg.CarriedBy octets := by
  induction args with
  | nil => simp
  | cons arg args ih =>
      rw [List.forall_mem_cons, ← ih]
      simp only [List.forall₂_cons_left_iff]
      constructor
      · rintro ⟨-, octets, payloads, harg, hargs, -⟩
        exact ⟨⟨octets, harg⟩, payloads, hargs⟩
      · rintro ⟨⟨octets, harg⟩, payloads, hargs⟩
        exact ⟨_, octets, payloads, harg, hargs, rfl⟩

end Argument

namespace Command

/-! ## Requests from plain arguments -/

section Request

variable {name : Bytes} {args : List Argument}

/-- The name of a command, or a text among its arguments, holds a stray octet. -/
def HoldsStray (name : Bytes) (args : List Argument) : Prop :=
  Text.HoldsStray name ∨ ∃ text, .text text ∈ args ∧ Text.HoldsStray text

/-- A request consists of the name and of the octets that carry the arguments. -/
theorem request_eq_ok_iff_carried {request : Value} :
    Command.request name args = .ok request ↔ (∃ s : String, name = Bytes.ofString s) ∧
      ∃ payloads, List.Forall₂ Argument.CarriedBy args payloads ∧
        request = .array (.bulk name :: payloads.map .bulk) := by
  simp only [request_eq_ok, Argument.mapM_payload_eq_ok]

/-- There is a request exactly if no text holds a stray octet. -/
theorem exists_request_iff :
    (∃ request, Command.request name args = .ok request) ↔ ¬ HoldsStray name args := by
  constructor
  · rintro ⟨request, hrequest⟩ hstray
    obtain ⟨hname, payloads, hargs, -⟩ := request_eq_ok_iff_carried.mp hrequest
    rcases hstray with hstray | ⟨text, hmem, hstray⟩
    · exact Text.not_holdsStray_iff.mpr hname hstray
    · have hcarried := Argument.exists_forall_carriedBy_iff.mp ⟨payloads, hargs⟩ _ hmem
      exact Argument.exists_carriedBy_iff.mp hcarried text rfl hstray
  · intro hvalid
    have hname : ∃ s : String, name = Bytes.ofString s :=
      Text.not_holdsStray_iff.mp fun hstray => hvalid (.inl hstray)
    have hargs : ∃ payloads, List.Forall₂ Argument.CarriedBy args payloads := by
      apply Argument.exists_forall_carriedBy_iff.mpr
      intro arg hmem
      apply Argument.exists_carriedBy_iff.mpr
      rintro text rfl hstray
      exact hvalid (.inr ⟨text, hmem, hstray⟩)
    obtain ⟨payloads, hargs⟩ := hargs
    exact ⟨_, request_eq_ok_iff_carried.mpr ⟨hname, payloads, hargs, rfl⟩⟩

/-- A run of stray octets is reported exactly if a text holds one. -/
theorem request_eq_error_iff :
    (∃ run, Command.request name args = .error run) ↔ HoldsStray name args := by
  have hrefused : (∃ run, Command.request name args = .error run) ↔
      ¬ ∃ request, Command.request name args = .ok request := by
    cases Command.request name args <;> simp
  rw [hrefused, exists_request_iff, Classical.not_not]

end Request

/-! ## From an application to a handler -/

/-- What becomes of a request that has the given name and payloads. -/
structure Delivered (limits : Limits) (name : Bytes) (payloads : List Bytes) (request : Value) :
    Prop where
  /-- The request can be written. -/
  encode : request.encode = .ok request.wire
  /-- It is read from its written form, and nothing is left, exactly if it is within the
  limits of the reader. -/
  decode_iff : decode limits request.wire 0 = .ok (request, request.wire.length) ↔
    request.Fits limits limits.depth
  /-- The handler gets a command of the given name, with a bulk string for each payload. -/
  parse : Command.parse request = .ok ⟨name, payloads.map .bulk, some request⟩
  /-- The array form of this command is the request. -/
  arrayForm : Command.toValue ⟨name, payloads.map .bulk, some request⟩ = .ok request
  /-- So is that of the same command without the request. -/
  arrayForm_bare : Command.toValue ⟨name, payloads.map .bulk, none⟩ = .ok request

/-- A request whose name is valid is delivered. -/
theorem delivered (limits : Limits) {name : Bytes} (hname : ∃ s : String, name = Bytes.ofString s)
    (payloads : List Bytes) :
    Delivered limits name payloads (.array (.bulk name :: payloads.map .bulk)) := by
  have hparse : parse (.array (.bulk name :: payloads.map .bulk)) =
      .ok ⟨name, payloads.map .bulk, some (.array (.bulk name :: payloads.map .bulk))⟩ :=
    parse_eq_ok.mpr ⟨name, payloads, rfl, rfl⟩
  have hwritten := encodeFault_of_parse hparse
  constructor
  case encode => rw [Value.encode, hwritten]
  case decode_iff => simpa using @Value.decode_wire_iff limits _ hwritten [] []
  case parse => exact hparse
  case arrayForm => rfl
  case arrayForm_bare => simp only [toValue, Text.validOctets_eq_ok.mpr ⟨rfl, hname⟩]

/-- What becomes of a command that an application gives by a name and plain arguments. -/
structure Sent (limits : Limits) (name : Bytes) (args : List Argument) : Prop where
  /-- It is refused exactly if its name or a text among its arguments holds a stray octet. -/
  refused_iff : (∃ run, Command.request name args = .error run) ↔ HoldsStray name args
  /-- Otherwise it is delivered as a request of its name and of payloads that carry the
  arguments. -/
  delivered : ¬ HoldsStray name args → ∃ request payloads,
    Command.request name args = .ok request ∧
      List.Forall₂ Argument.CarriedBy args payloads ∧ Delivered limits name payloads request

/-- Every command is refused or delivered. -/
theorem sent (limits : Limits) (name : Bytes) (args : List Argument) : Sent limits name args where
  refused_iff := request_eq_error_iff
  delivered := by
    intro hvalid
    obtain ⟨request, hrequest⟩ := exists_request_iff.mpr hvalid
    obtain ⟨hname, payloads, hargs, rfl⟩ := request_eq_ok_iff_carried.mp hrequest
    exact ⟨_, payloads, hrequest, hargs, Command.delivered limits hname payloads⟩

/-! ## From a handler to the log -/

/-- A value is a request exactly if it is an array with at least one item, and all its items
are bulk strings that are present. -/
theorem exists_parse_iff {value : Value} :
    (∃ command, parse value = .ok command) ↔ ∃ items, value = .array items ∧ items ≠ [] ∧
      ∀ item ∈ items, ∃ payload, item = .bulk payload := by
  constructor
  · rintro ⟨command, hparse⟩
    obtain ⟨name, payloads, rfl, -⟩ := parse_eq_ok.mp hparse
    refine ⟨_, rfl, List.cons_ne_nil _ _, ?_⟩
    rw [← List.map_cons]
    intro item hitem
    obtain ⟨payload, -, rfl⟩ := List.mem_map.mp hitem
    exact ⟨payload, rfl⟩
  · rintro ⟨items, rfl, hsome, hitems⟩
    have hpayloads : items ∈ Set.range (List.map Value.bulk) := by
      rw [Set.range_list_map]
      intro item hitem
      obtain ⟨payload, rfl⟩ := hitems item hitem
      exact ⟨payload, rfl⟩
    obtain ⟨payloads, rfl⟩ := hpayloads
    cases payloads with
    | nil => exact absurd rfl hsome
    | cons name payloads => exact ⟨_, parse_eq_ok.mpr ⟨name, payloads, rfl, rfl⟩⟩

/-- The array form of a command that was taken from a request is the request. -/
theorem toValue_of_parse {value : Value} {command : Command}
    (hparse : parse value = .ok command) : command.toValue = .ok value := by
  obtain ⟨name, payloads, -, rfl⟩ := parse_eq_ok.mp hparse
  rfl

/-- What a log makes of a value that is appended to it. -/
structure Recorded (limits : Limits) (value : Value) (log : Log) (octets : Bytes) (later : Log) :
    Prop where
  /-- The octets are the written form of the value. -/
  encode : value.encode = .ok octets
  /-- The log takes them and says how many they are. -/
  append : log.append value = (.ok octets.length, later)
  /-- The next flush puts them at the end of the file, behind those that were waiting. -/
  flush : ∀ volume content, volume.place = .file content →
    (later.flush volume).volume.place = .file (content ++ log.pendingOctets ++ octets)
  /-- The value is decoded from them, wherever they stand, exactly if it is within the limits
  of the reader. -/
  decode_iff : ∀ before after, decode limits (before ++ octets ++ after) before.length =
    .ok (value, before.length + octets.length) ↔ value.Fits limits limits.depth

/-- An open log takes every request, unless an attempt to write is to fail. -/
theorem recorded (limits : Limits) {value : Value} {command : Command} {log : Log}
    (hparse : parse value = .ok command) (haccepts : log.accepts = true) :
    ∃ octets later, Recorded limits value log octets later := by
  have hwritten := encodeFault_of_parse hparse
  obtain ⟨handle, hhandle, hworks⟩ : ∃ handle, log.handle? = some handle ∧
      handle.works = true := by
    simpa [Log.accepts, Option.any_eq_true] using haccepts
  obtain ⟨later, happend, hstill, hpieces⟩ := Log.append_ok hhandle hworks hwritten
  refine ⟨value.wire, _, ?_, happend, ?_, Value.decode_wire_iff hwritten⟩
  · rw [Value.encode, hwritten]
  · intro volume content hplace
    obtain ⟨moved, hvolume, hmoved, hempty⟩ := Log.flush_spec
      { log with handle? := some later, appended := log.appended + 1 } hplace
    have hwaiting : log.pieces = handle.pieces := by rw [Log.pieces, hhandle]; rfl
    rw [hempty (.inr hstill), List.append_nil] at hmoved
    rw [hvolume, hmoved, ← Log.flatten_pieces, hwaiting, List.append_assoc]
    change Place.file (content ++ later.pieces.flatten) = _
    rw [hpieces, List.flatten_append, List.flatten_singleton]

/-! ## The whole way -/

/-- A command that an application gives is refused if one of its texts holds a stray octet,
and otherwise reaches its handler with the same name and the same arguments.  Conversely the
values that are taken for commands are the arrays of at least one item all of whose items
are present bulk strings.  Whatever octets they hold, such a value is the array form of its
command, and a log takes it in a form from which the same value is read. -/
theorem lossless (limits : Limits) :
    (∀ name args, Sent limits name args) ∧
    (∀ value, (∃ command, parse value = .ok command) ↔
      ∃ items, value = .array items ∧ items ≠ [] ∧
        ∀ item ∈ items, ∃ payload, item = .bulk payload) ∧
    ∀ value command, parse value = .ok command →
      command.toValue = .ok value ∧
        ∀ log : Log, log.accepts = true →
          ∃ octets later, Recorded limits value log octets later := by
  refine ⟨sent limits, fun value => exists_parse_iff, fun value command hparse => ?_⟩
  exact ⟨toValue_of_parse hparse, fun log haccepts => recorded limits hparse haccepts⟩

/-- A text with an accent, octets that are no text and a negative number set out and arrive.
A name that is no text cannot set out; once it has arrived it goes to the log. -/
theorem lossless_mixed :
    (¬ HoldsStray (Bytes.ofString "SET")
        [.text (Bytes.ofString "clé"), .bytes [0xFF, 0x0D], .integer (-12)] ∧
      ∃ request payloads, Command.request (Bytes.ofString "SET")
          [.text (Bytes.ofString "clé"), .bytes [0xFF, 0x0D], .integer (-12)] = .ok request ∧
        List.Forall₂ Argument.CarriedBy
          [.text (Bytes.ofString "clé"), .bytes [0xFF, 0x0D], .integer (-12)] payloads ∧
        Delivered .standard (Bytes.ofString "SET") payloads request) ∧
    (HoldsStray [0x73, 0xFF] [] ∧ ∃ run, Command.request [0x73, 0xFF] [] = .error run) ∧
    parse (.array [.bulk [0x73, 0xFF], .bulk []]) =
        .ok ⟨[0x73, 0xFF], [.bulk []], some (.array [.bulk [0x73, 0xFF], .bulk []])⟩ ∧
      ∃ octets later, Recorded .standard (.array [.bulk [0x73, 0xFF], .bulk []])
        { Log.unopened "log.aof" .standard .one with handle? := some .fresh } octets later := by
  have hvalid : ¬ HoldsStray (Bytes.ofString "SET")
      [.text (Bytes.ofString "clé"), .bytes [0xFF, 0x0D], .integer (-12)] :=
    exists_request_iff.mp ⟨_, rfl⟩
  have hstray : HoldsStray [0x73, 0xFF] [] := request_eq_error_iff.mp ⟨_, rfl⟩
  obtain ⟨hsent, -, htaken⟩ := lossless .standard
  exact ⟨⟨hvalid, (hsent _ _).delivered hvalid⟩, ⟨hstray, (hsent _ _).refused_iff.mpr hstray⟩,
    rfl, (htaken _ _ rfl).2 _ rfl⟩

end Command

end DurableStore
