import DurableStore.Proofs.Wire.Decision
import DurableStore.Proofs.Wire.Receiving

/-!
# What a stream yields

Octets arrive at a stream in any pieces, at any time between the calls that ask
it for values, and while a call waits for them.  A read delivers what has arrived
or the beginning of it; that it delivers less than has arrived is the case that
the rest arrives later.  A call that waits may go on when more has arrived, or be
given up in favour of a new one.  None of this matters for what the calls return:
the values of the whole string one behind the other, and then the same answer
over and over.

Main results:

- Definition `Stream.run`: what the calls return while octets arrive.
- Definition `Stream.Exhausted`: the answer of a stream that yields no more
  values.
- Structure `Stream.Progress`: what has been returned so far, and what is left.
- Theorem `Stream.run_follows_decodeAll`: the answers of the calls are the values
  of the whole string, and then that answer.
-/

namespace DurableStore

namespace Stream

open Record

/-! ## The use of a stream -/

/-- How a stream is asked for a value. -/
inductive Call
  /-- A new call, perhaps in place of a waiting one that has been given up. -/
  | start
  /-- A waiting call goes on. -/
  | resume
  deriving DecidableEq, Repr

/-- What happens to a stream until it is closed. -/
inductive Event
  /-- Octets arrive. -/
  | arrive (piece : Bytes)
  /-- The stream is asked for a value. -/
  | call (call : Call)
  deriving DecidableEq, Repr

/-- The octets that arrive with an event. -/
def Event.octets : Event → Bytes
  | .arrive piece => piece
  | .call _ => []

/-- The octets that arrive in the course of events. -/
def arrivals (events : List Event) : Bytes :=
  events.flatMap Event.octets

/-- The stream is asked for a value. -/
def ask (limits : Limits) (readSize : Nat) (stream : Stream) : Call → Received × Stream
  | .start => stream.next limits readSize
  | .resume => stream.read limits readSize

/-- The results that calls return, which a waiting call does not. -/
def returned : Received → List Received
  | .waiting => []
  | result => [result]

/-- What an event makes of a stream, and what the calls return. -/
def step (limits : Limits) (readSize : Nat) (stream : Stream) : Event → List Received × Stream
  | .arrive piece => ([], stream.feed piece)
  | .call call =>
      (returned (stream.ask limits readSize call).1, (stream.ask limits readSize call).2)

/-- What events make of a stream, and what the calls return. -/
def run (limits : Limits) (readSize : Nat) (stream : Stream) : List Event → List Received × Stream
  | [] => ([], stream)
  | event :: events =>
      let (results, left) := stream.step limits readSize event
      let (later, last) := left.run limits readSize events
      (results ++ later, last)

variable {limits : Limits} {readSize : Nat} {stream : Stream}

/-- What a first event and those behind it make of a stream. -/
theorem run_cons (event : Event) (events : List Event) :
    stream.run limits readSize (event :: events) =
      ((stream.step limits readSize event).1 ++
          ((stream.step limits readSize event).2.run limits readSize events).1,
        ((stream.step limits readSize event).2.run limits readSize events).2) :=
  rfl

/-! ## The last answer -/

/-- A stream that holds these octets returns the same answer to every further
call: they are malformed, or the stream is closed and they are none, or not enough
for a value. -/
inductive Exhausted (limits : Limits) (closed : Bool) (octets : Bytes) : Received → Prop
  /-- The octets are the beginning of no value. -/
  | malformed {error : DecodeError} (hdecode : decode limits octets 0 = .error error)
      (hfinal : ¬ error.EndsEarly) : Exhausted limits closed octets (.malformed error)
  /-- The stream has ended behind a value. -/
  | ended (hclosed : closed = true) (hnone : octets = []) : Exhausted limits closed octets .ended
  /-- The stream has ended inside a value. -/
  | cutOff (hclosed : closed = true) (hsome : octets ≠ []) (hshort : TooShort limits octets) :
      Exhausted limits closed octets (.cutOff octets.length)

variable {closed : Bool} {octets : Bytes} {result : Received}

/-- The stream is exhausted by octets that it judges to be malformed. -/
theorem exhausted_of_obstacle {error : DecodeError}
    (hobstacle : obstacle? limits octets = some error) :
    Exhausted limits closed octets (.malformed error) := by
  obtain ⟨hread, hfinal⟩ := obstacle_eq_some.mp hobstacle
  refine .malformed (decode_eq_error.mpr hread) fun hearly => ?_
  rw [DecodeError.isShort_iff.mpr hearly] at hfinal
  cases hfinal

/-- The answer of an exhausted stream is its judgement of the octets, all of which
are left. -/
theorem Exhausted.judge_eq (hlast : Exhausted limits closed octets result) :
    Received.ofJudgement closed (judge limits octets) = result ∧
      (judge limits octets).2 = octets := by
  cases hlast with
  | @malformed error hdecode hfinal =>
      have hread : readValue limits limits.depth ⟨0, octets⟩ = .error error :=
        decode_eq_error.mp hdecode
      have hlong := fun hshort => hfinal (DecodeError.isShort_iff.mp hshort)
      rw [judge_malformed (obstacle_eq_some.mpr ⟨hread, by simpa using hlong⟩)]
      exact ⟨rfl, rfl⟩
  | ended hclosed hnone =>
      subst hclosed hnone
      rw [judge_short (readValue_nil limits limits.depth 0) rfl]
      exact ⟨rfl, rfl⟩
  | cutOff hclosed hsome hshort =>
      obtain ⟨error, hdecode, hearly⟩ := hshort
      have hread : readValue limits limits.depth ⟨0, octets⟩ = .error error :=
        decode_eq_error.mp hdecode
      rw [judge_short hread (DecodeError.isShort_iff.mpr hearly)]
      simp [Received.ofJudgement, hclosed, hsome]

/-- An exhausted stream has one answer. -/
theorem Exhausted.unique {other : Received} (hlast : Exhausted limits closed octets result)
    (hother : Exhausted limits closed octets other) : result = other :=
  hlast.judge_eq.1.symm.trans hother.judge_eq.1

/-- What an exhausted stream holds does not begin with a value. -/
theorem Exhausted.ne_record (hlast : Exhausted limits closed octets result) {record : Record}
    (hrecord : record.Holds limits) (rest : Bytes) : octets ≠ record.octets ++ rest := by
  rintro rfl
  have hrest := hlast.judge_eq.2
  rw [judge_record hrecord] at hrest
  exact hrecord.ne_nil (List.self_eq_append_left.mp hrest)

/-- Closing a stream does not change its last answer. -/
theorem Exhausted.close (hlast : Exhausted limits closed octets result) :
    Exhausted limits true octets result := by
  cases hlast with
  | malformed hdecode hfinal => exact .malformed hdecode hfinal
  | ended _ hnone => exact .ended rfl hnone
  | cutOff _ hsome hshort => exact .cutOff rfl hsome hshort

/-- Octets that arrive do not change the last answer of an open stream. -/
theorem Exhausted.append (hlast : Exhausted limits false octets result) (piece : Bytes) :
    Exhausted limits false (octets ++ piece) result := by
  cases hlast with
  | malformed hdecode hfinal =>
      refine .malformed ?_ hfinal
      rw [decode_append, hdecode]
      rintro ⟨error, hshort, hearly⟩
      rw [hdecode] at hshort
      cases hshort
      exact hfinal hearly
  | ended hclosed _ => cases hclosed
  | cutOff hclosed _ _ => cases hclosed

/-- Octets that begin with no value exhaust a stream once it is closed. -/
theorem exists_exhausted {error : DecodeError}
    (hread : readValue limits limits.depth ⟨0, octets⟩ = .error error) :
    ∃ last, Exhausted limits true octets last := by
  have hdecode : decode limits octets 0 = .error error := decode_eq_error.mpr hread
  by_cases hearly : error.EndsEarly
  · by_cases hnone : octets = []
    · exact ⟨.ended, .ended rfl hnone⟩
    · exact ⟨.cutOff octets.length, .cutOff rfl hnone ⟨error, hdecode, hearly⟩⟩
  · exact ⟨.malformed error, .malformed hdecode hearly⟩

/-- A stream returns the first value of the octets that have arrived, waits for
more of them, or is exhausted. -/
theorem judge_answers (limits : Limits) (closed : Bool) (octets : Bytes) :
    (∃ record : Record, ∃ rest, record.Holds limits ∧ octets = record.octets ++ rest ∧
      Received.ofJudgement closed (judge limits octets) = .value record.value ∧
      (judge limits octets).2 = rest) ∨
    (Received.ofJudgement closed (judge limits octets) = .waiting ∧ closed = false ∧
      (judge limits octets).2 = octets) ∨
    ∃ last, Exhausted limits closed octets last := by
  rcases judge_cases limits octets with ⟨record, rest, hholds, rfl⟩ | ⟨error, hread, hshort⟩ |
    ⟨error, hobstacle⟩
  · refine .inl ⟨record, rest, hholds, rfl, ?_⟩
    rw [judge_record hholds]
    exact ⟨rfl, rfl⟩
  · cases closed with
    | true => exact .inr (.inr (exists_exhausted hread))
    | false =>
        rw [judge_short hread hshort]
        exact .inr (.inl ⟨rfl, rfl, rfl⟩)
  · exact .inr (.inr ⟨.malformed error, exhausted_of_obstacle hobstacle⟩)

/-! ## Progress -/

/-- However a stream is asked, it judges the octets that have arrived. -/
theorem Sound.ask (hsound : stream.Sound limits) (hsize : 0 < readSize) (call : Call) :
    ∃ left, stream.ask limits readSize call =
        (.ofJudgement stream.closed (judge limits stream.octets), left) ∧
      left.octets = (judge limits stream.octets).2 ∧ left.closed = stream.closed ∧
      left.Sound limits := by
  cases call with
  | start => exact hsound.next hsize
  | resume => exact hsound.read hsize

/-- Of the octets that have arrived, those of the records have been taken off the
stream, which holds the others; the values of the records have been returned, and
behind them only the answer of an exhausted stream. -/
structure Progress (limits : Limits) (data : Bytes) (taken : List Record)
    (results : List Received) (stream : Stream) : Prop where
  sound : stream.Sound limits
  partition : data = joined taken ++ stream.octets
  holds : ∀ record ∈ taken, record.Holds limits
  returned : ∃ repeated, results = taken.map (fun record => .value record.value) ++ repeated ∧
    ∀ result ∈ repeated, Exhausted limits stream.closed stream.octets result

namespace Progress

variable {data : Bytes} {taken : List Record} {results : List Received}

/-- Nothing has happened on a new stream. -/
theorem empty : Progress limits [] [] [] Stream.empty where
  sound := Receiver.sound_empty
  partition := rfl
  holds := by simp
  returned := ⟨[], rfl, by simp⟩

/-- Octets that arrive are left on the stream. -/
theorem arrive (hprogress : Progress limits data taken results stream)
    (hopen : stream.closed = false) (piece : Bytes) :
    Progress limits (data ++ piece) taken results (stream.feed piece) := by
  have hoctets : (stream.feed piece).octets = stream.octets ++ piece := by
    simp [Stream.octets, Stream.feed]
  obtain ⟨repeated, hresults, hrepeated⟩ := hprogress.returned
  refine ⟨hprogress.sound, ?_, hprogress.holds, repeated, hresults, fun result hmem => ?_⟩
  · rw [hoctets, hprogress.partition, List.append_assoc]
  · have hlast := hrepeated result hmem
    rw [hopen] at hlast
    rw [hoctets, Stream.feed, hopen]
    exact hlast.append piece

/-- Closing the stream changes nothing. -/
theorem close (hprogress : Progress limits data taken results stream) :
    Progress limits data taken results stream.close where
  sound := hprogress.sound
  partition := hprogress.partition
  holds := hprogress.holds
  returned := by
    obtain ⟨repeated, hresults, hrepeated⟩ := hprogress.returned
    exact ⟨repeated, hresults, fun result hmem => (hrepeated result hmem).close⟩

/-- A stream that yields a value has not been exhausted before, and holds what
stands behind the record of the value. -/
theorem take (hprogress : Progress limits data taken results stream) {left : Stream}
    (hleft : left.Sound limits) {record : Record} (hrecord : record.Holds limits)
    (hsplit : stream.octets = record.octets ++ left.octets) :
    Progress limits data (taken ++ [record]) (results ++ [.value record.value]) left := by
  obtain ⟨repeated, hresults, hrepeated⟩ := hprogress.returned
  obtain rfl : repeated = [] := by
    cases repeated with
    | nil => rfl
    | cons result _ =>
        exact absurd hsplit ((hrepeated result List.mem_cons_self).ne_record hrecord left.octets)
  refine ⟨hleft, ?_, fun other hmem => ?_, [], ?_, by simp⟩
  · rw [hprogress.partition, hsplit]
    simp
  · rcases List.mem_append.mp hmem with htaken | hnew
    · exact hprogress.holds other htaken
    · rwa [List.mem_singleton.mp hnew]
  · simp [hresults]

/-- What the receiver of a stream has read, and what it has not, does not matter. -/
theorem keep (hprogress : Progress limits data taken results stream) {left : Stream}
    (hleft : left.Sound limits) (hoctets : left.octets = stream.octets)
    (hclosed : left.closed = stream.closed) : Progress limits data taken results left where
  sound := hleft
  partition := by rw [hoctets, hprogress.partition]
  holds := hprogress.holds
  returned := by
    rw [hoctets, hclosed]
    exact hprogress.returned

/-- The answer of an exhausted stream is returned again and again. -/
theorem exhaust (hprogress : Progress limits data taken results stream) {last : Received}
    (hlast : Exhausted limits stream.closed stream.octets last) :
    Progress limits data taken (results ++ [last]) stream where
  sound := hprogress.sound
  partition := hprogress.partition
  holds := hprogress.holds
  returned := by
    obtain ⟨repeated, hresults, hrepeated⟩ := hprogress.returned
    refine ⟨repeated ++ [last], by rw [hresults, List.append_assoc], fun result hmem => ?_⟩
    rcases List.mem_append.mp hmem with hbefore | hnew
    · exact hrepeated result hbefore
    · rwa [List.mem_singleton.mp hnew]

/-- A call takes one record off the stream and returns its value, or waits, or
returns the last answer. -/
theorem ask (hprogress : Progress limits data taken results stream) (hsize : 0 < readSize)
    (call : Call) :
    ∃ taken', Progress limits data taken'
        (results ++ Stream.returned (stream.ask limits readSize call).1)
        (stream.ask limits readSize call).2 ∧
      (stream.ask limits readSize call).2.closed = stream.closed ∧
      (stream.closed = true →
        (Stream.returned (stream.ask limits readSize call).1).length = 1) := by
  obtain ⟨left, hask, hoctets, hclosed, hleft⟩ := hprogress.sound.ask hsize call
  rw [hask]
  rcases judge_answers limits stream.closed stream.octets with
    ⟨record, rest, hrecord, hsplit, hanswer, hrest⟩ | ⟨hanswer, hopen, hrest⟩ | ⟨last, hlast⟩
  · rw [← hrest, ← hoctets] at hsplit
    rw [hanswer]
    exact ⟨taken ++ [record], hprogress.take hleft hrecord hsplit, hclosed, fun _ => rfl⟩
  · rw [hanswer, Stream.returned, List.append_nil]
    refine ⟨taken, hprogress.keep hleft (hoctets.trans hrest) hclosed, hclosed, fun hshut => ?_⟩
    rw [hopen] at hshut
    cases hshut
  · obtain ⟨hanswer, hrest⟩ := hlast.judge_eq
    have hreturned : Stream.returned last = [last] := by cases hlast <;> rfl
    have hkept := (hprogress.exhaust hlast).keep hleft (hoctets.trans hrest) hclosed
    rw [hanswer, hreturned]
    exact ⟨taken, hkept, hclosed, fun _ => rfl⟩

/-- Any events that happen to an open stream leave it with the octets that have
not been taken, and open. -/
theorem run (hprogress : Progress limits data taken results stream)
    (hopen : stream.closed = false) (hsize : 0 < readSize) (events : List Event) :
    ∃ taken', Progress limits (data ++ arrivals events) taken'
        (results ++ (stream.run limits readSize events).1)
        (stream.run limits readSize events).2 := by
  induction events generalizing data taken results stream with
  | nil => exact ⟨taken, by simpa [arrivals, Stream.run] using hprogress⟩
  | cons event events ih =>
      rw [run_cons, arrivals, List.flatMap_cons, ← List.append_assoc, ← List.append_assoc]
      cases event with
      | arrive piece =>
          have hnext := ih (hprogress.arrive hopen piece) hopen
          simpa [step, Event.octets, arrivals] using hnext
      | call call =>
          obtain ⟨taken', hnext, hclosed, -⟩ := hprogress.ask hsize call
          simpa [step, Event.octets, arrivals] using ih hnext (hclosed.trans hopen)

/-- Calls on a closed stream are all answered. -/
theorem run_closed (hprogress : Progress limits data taken results stream)
    (hclosed : stream.closed = true) (hsize : 0 < readSize) (calls : List Call) :
    (stream.run limits readSize (calls.map .call)).1.length = calls.length ∧
      ∃ taken', Progress limits data taken'
        (results ++ (stream.run limits readSize (calls.map .call)).1)
        (stream.run limits readSize (calls.map .call)).2 := by
  induction calls generalizing taken results stream with
  | nil => exact ⟨rfl, taken, by simpa [Stream.run] using hprogress⟩
  | cons call calls ih =>
      obtain ⟨taken', hnext, hstays, hone⟩ := hprogress.ask hsize call
      obtain ⟨hlength, taken'', hlater⟩ := ih hnext (hstays.trans hclosed)
      rw [List.map_cons, run_cons, ← List.append_assoc]
      refine ⟨?_, taken'', hlater⟩
      rw [List.length_append]
      exact (congrArg₂ (· + ·) (hone hclosed) hlength).trans (Nat.add_comm 1 calls.length)

/-- The records that have been taken are the first ones of the division of the
data, as many as results have been returned if there are so many. -/
theorem taken_eq (hprogress : Progress limits data taken results stream) {records : List Record}
    {rest : Bytes} (hsplits : Splits limits data records rest) :
    taken = records.take results.length := by
  obtain ⟨more, behind, hmore⟩ := exists_splits limits stream.octets
  obtain ⟨repeated, hresults, hrepeated⟩ := hprogress.returned
  have hwhole := hmore.prepend hprogress.holds
  rw [← hprogress.partition] at hwhole
  obtain ⟨rfl, rfl⟩ := hsplits.unique hwhole
  cases repeated with
  | nil => simp [hresults]
  | cons result repeated =>
      -- No record is left on a stream that has been exhausted.
      obtain rfl : more = [] := by
        cases more with
        | nil => rfl
        | cons record more =>
            have hlast := hrepeated result List.mem_cons_self
            have hsplit := hmore.partition
            rw [joined_cons, List.append_assoc] at hsplit
            exact absurd hsplit (hlast.ne_record (hmore.holds record List.mem_cons_self) _)
      rw [List.append_nil, List.take_of_length_le]
      simp [hresults]

/-- The octets that have not been taken stand behind the values that have been
returned. -/
theorem octets_eq (hprogress : Progress limits data taken results stream) :
    stream.octets = data.drop ((decodeAll limits data).stopAfter results.length) := by
  obtain ⟨records, rest, hsplits⟩ := exists_splits limits data
  rw [hsplits.stopAfter_decodeAll, ← hprogress.taken_eq hsplits]
  conv_rhs => rw [hprogress.partition]
  rw [List.drop_left]

/-- What has been returned are the values of the data, and behind all of them the
last answer. -/
theorem results_eq (hprogress : Progress limits data taken results stream) {last : Received}
    (hlast : Exhausted limits true (data.drop (decodeAll limits data).stop) last) {index : Nat}
    {result : Received} (hresult : results[index]? = some result) :
    result =
      ((decodeAll limits data).values.map fun found => Received.value found.1).getD index last := by
  obtain ⟨records, rest, hsplits⟩ := exists_splits limits data
  obtain ⟨repeated, hresults, hrepeated⟩ := hprogress.returned
  have htaken := hprogress.taken_eq hsplits
  have hvalues : ((decodeAll limits data).values.map fun found => Received.value found.1) =
      records.map fun record => Received.value record.value := by
    have hall := congrArg (List.map Received.value) hsplits.values_decodeAll
    simpa only [List.map_map, Function.comp_def] using hall
  rw [hsplits.drop_stop] at hlast
  rw [hvalues, List.getD_eq_getElem?_getD]
  rw [hresults] at hresult
  have hbound : index < results.length := by
    rw [hresults]
    exact (List.getElem?_eq_some_iff.mp hresult).1
  rcases Nat.lt_or_ge index taken.length with hless | hmore
  · -- The result is the value of a record.
    rw [List.getElem?_append_left (by rwa [List.length_map]), htaken, List.map_take,
      List.getElem?_take_of_lt hbound] at hresult
    rw [hresult, Option.getD_some]
  · -- The result is the last answer, and all records have been taken.
    rw [List.getElem?_append_right (by rwa [List.length_map])] at hresult
    have hfinal := hrepeated result (List.mem_of_getElem? hresult)
    have hnone : records.length ≤ index := by
      rw [htaken, List.length_take] at hmore
      omega
    obtain rfl : records = taken := by
      rw [htaken, List.take_of_length_le (hnone.trans hbound.le)]
    have hrest : rest = stream.octets :=
      List.append_cancel_left (hsplits.partition.symm.trans hprogress.partition)
    rw [hrest] at hlast
    rw [List.getElem?_eq_none (by rwa [List.length_map]), Option.getD_none]
    exact hfinal.close.unique hlast

end Progress

/-! ## Streams and whole strings -/

/-- In whatever pieces octets arrive at a stream until it is closed, and whenever
it is asked for values, its results are the values that decoding finds in all these
octets together, and then one answer over and over: that there is nothing left, why
the rest is malformed, or how much of an incomplete value there is.  Once the stream
is closed every call is answered.  What the stream holds at any time is what stands
behind the values that it has returned. -/
theorem run_follows_decodeAll (limits : Limits) {readSize : Nat} (hsize : 0 < readSize)
    (events : List Event) (calls : List Call) :
    let data := arrivals events
    let opened := empty.run limits readSize events
    let closed := opened.2.close.run limits readSize (calls.map .call)
    closed.1.length = calls.length ∧
      (∃ last, Exhausted limits true (data.drop (decodeAll limits data).stop) last ∧
        ∀ index result, (opened.1 ++ closed.1)[index]? = some result →
          result = ((decodeAll limits data).values.map fun found =>
            Received.value found.1).getD index last) ∧
      opened.2.octets = data.drop ((decodeAll limits data).stopAfter opened.1.length) ∧
      closed.2.octets =
        data.drop ((decodeAll limits data).stopAfter (opened.1 ++ closed.1).length) := by
  intro data opened closed
  have hempty : Progress limits [] [] [] empty := .empty
  obtain ⟨taken, hopened⟩ := hempty.run rfl hsize events
  obtain ⟨hlength, all, hclosed⟩ := hopened.close.run_closed rfl hsize calls
  obtain ⟨records, rest, hsplits⟩ := exists_splits limits data
  obtain ⟨error, hstop⟩ := hsplits.stops
  obtain ⟨last, hlast⟩ := exists_exhausted hstop
  rw [← hsplits.drop_stop] at hlast
  exact ⟨hlength, ⟨last, hlast, fun index result hresult => hclosed.results_eq hlast hresult⟩,
    hopened.octets_eq, hclosed.octets_eq⟩

/-- A status line in two pieces and the first octet behind it, for instance, are
answered by the status and twice by the octet that is left. -/
theorem run_follows_decodeAll_pieces :
    let events : List Event :=
      [.call .start, .arrive (Bytes.ofString "+O"), .call .resume,
        .arrive (Bytes.ofString "K\r\n$"), .call .start]
    let opened := empty.run .standard 2 events
    let closed := opened.2.close.run .standard 2 ([.start, .resume].map .call)
    0 < 2 ∧ arrivals events = Bytes.ofString "+OK\r\n$" ∧
      opened.1 ++ closed.1 =
        [.value (.simple (Bytes.ofString "OK")), .cutOff 1, .cutOff 1] ∧
      (∃ last, Exhausted .standard true
          ((arrivals events).drop (decodeAll .standard (arrivals events)).stop) last ∧
        ∀ index result, (opened.1 ++ closed.1)[index]? = some result →
          result = ((decodeAll .standard (arrivals events)).values.map fun found =>
            Received.value found.1).getD index last) ∧
      closed.2.octets = Bytes.ofString "$" := by
  intro events opened closed
  have hsize : 0 < 2 := by decide
  obtain ⟨-, hanswers, -, hleft⟩ :=
    run_follows_decodeAll .standard hsize events [.start, .resume]
  exact ⟨hsize, by decide, by decide, hanswers, hleft.trans (by decide)⟩

end Stream

end DurableStore
