import DurableStore.Proofs.Log.Reopening

/-!
# What an open log keeps

An open log is given values and commands, is flushed by hand and in rounds, and is
closed at some time; meanwhile attempts to write to its file may fail, and so may forcing
the file to stable storage.  Whatever happens, the file holds what the log was opened on
and the first of the values it took, in the order in which it took them; the others wait in
the buffer.  Nothing is there of the values it refused.

What waits reaches the file with a flush that succeeds, with one that fails only as the file
is forced to stable storage, and with closing.  There is one exception.  If both attempts to
write fail with which a log is closed, then what waits is lost, and the log is left half
closed: it counts as open, and until it is closed once more it is the closed file, and not
the log, that refuses what it is given.  Its own documentation says otherwise.

Main results:

- Definitions `Session.step` and `Session.run`: what can be done to a log, and what
  can befall it.
- Theorem `Session.appends`: how giving something to a log ends.
- Theorem `Session.Holds.step` and `Session.Holds.run`: every step and every run keep
  account of what has been taken.
- Theorem `Session.run_kept`: what is in the file, what is refused, and what
  reopening the file replays.
- Theorem `Session.closing_halfway`: a log that is closed while writing fails still counts
  as open.
-/

namespace DurableStore

/-! ## What happens to an open log -/

/-- What an application gives to a log. -/
inductive Submission
  | value (value : Value)
  | command (command : Command)
  deriving DecidableEq, Repr

namespace Submission

/-- The value that is to be appended; a command is written in its array form. -/
def toValue : Submission → Except StrayRun Value
  | .value given => .ok given
  | .command given => given.toValue

/-- What is given has a written form. -/
def Writable (submission : Submission) : Prop :=
  ∃ value, submission.toValue = .ok value ∧ value.encodeFault? = none

end Submission

/-- What is done to an open log, or befalls its file. -/
inductive Deed
  | append (submission : Submission)
  | flush
  /-- The background flusher has a round. -/
  | tick
  | close
  /-- From now on attempts to write to the file fail as told. -/
  | obstruct (faults : List Bool)
  /-- Forcing the file to stable storage fails from now on, or no longer does. -/
  | setSyncFails (fails : Bool)
  deriving DecidableEq, Repr

/-- Whether a deed is to move what waits into the file. -/
def Deed.settles : Deed → Bool
  | .flush | .tick | .close => true
  | .append _ | .obstruct _ | .setSyncFails _ => false

/-- How a deed can fail. -/
inductive DeedError
  /-- A command has no array form, because its name is no valid text. -/
  | stray (run : StrayRun)
  | append (error : AppendError)
  | sync (error : LogError)
  deriving DecidableEq, Repr

/-- Whether what was given to a log has no written form. -/
def DeedError.isEncoding : DeedError → Bool
  | .stray _ | .append (.unwritable _) => true
  | .append (.refused _) | .sync _ => false

/-- A log and its file. -/
structure Session where
  log : Log
  volume : Volume
  deriving DecidableEq, Repr

/-- Deeds and how each of them ended. -/
abbrev Doings := List (Deed × Except DeedError Unit)

/-- The values that were taken, in order. -/
def Doings.taken (doings : Doings) : List Value :=
  doings.filterMap fun done =>
    match done with
    | (.append submission, .ok _) => submission.toValue.toOption
    | _ => none

/-- No closing has failed halfway. -/
def Doings.ClosedWhole (doings : Doings) : Prop :=
  ∀ reason, (.close, .error (.sync (.cannotClose reason))) ∉ doings

namespace Session

/-- How a deed ends, and what it leads to. -/
def step (session : Session) : Deed → Except DeedError Unit × Session
  | .append submission =>
      match submission.toValue with
      | .error run => (.error (.stray run), session)
      | .ok value =>
          match session.log.append value with
          | (.ok _, log) => (.ok (), { session with log })
          | (.error error, log) => (.error (.append error), { session with log })
  | .flush =>
      let done := session.log.flush session.volume
      (done.result.mapError .sync, ⟨done.log, done.volume⟩)
  | .tick =>
      let done := session.log.tick session.volume
      (done.result.mapError .sync, ⟨done.log, done.volume⟩)
  | .close =>
      let done := session.log.close session.volume
      (done.result.mapError .sync, ⟨done.log, done.volume⟩)
  | .obstruct faults => (.ok (), { session with log := session.log.obstruct faults })
  | .setSyncFails fails =>
      (.ok (), { session with volume := { session.volume with syncFails := fails } })

/-- Deeds one after the other, and what they lead to. -/
def run (session : Session) : List Deed → Doings × Session
  | [] => ([], session)
  | deed :: deeds =>
      let rest := (session.step deed).2.run deeds
      ((deed, (session.step deed).1) :: rest.1, rest.2)

/-! ## Giving something to a log -/

/-- How giving something to a log can end, and what it leads to. -/
inductive Appends (session : Session) (submission : Submission) :
    Except DeedError Unit × Session → Prop
  /-- It has no written form. -/
  | unwritable {error : DeedError} (hencoding : error.isEncoding = true)
      (hunwritable : ¬ submission.Writable) : Appends session submission (.error error, session)
  /-- The file is closed. -/
  | shut (hwritable : submission.Writable) (hshut : session.log.handle? = none) :
      Appends session submission (.error (.append (.refused session.log.refusal)), session)
  /-- An attempt to write fails. -/
  | failed {handle later : Handle} (hwritable : submission.Writable)
      (hhandle : session.log.handle? = some handle) (hfails : handle.works = false)
      (hpieces : later.pieces = handle.pieces) :
      Appends session submission
        (.error (.append (.refused (.cannotAppend session.log.path Volume.systemError))),
          { session with log := { session.log with handle? := some later } })
  /-- It is taken. -/
  | taken {value : Value} {handle later : Handle} (hvalue : submission.toValue = .ok value)
      (hwritten : value.encodeFault? = none) (hhandle : session.log.handle? = some handle)
      (hpieces : later.pieces = handle.pieces ++ [value.wire]) :
      Appends session submission
        (.ok (), { session with log := { session.log with
          handle? := some later
          appended := session.log.appended + 1 } })

/-- Something given to a log has no written form, is refused since the file is closed, is
lost in a failing attempt to write, or is taken. -/
theorem appends (session : Session) (submission : Submission) :
    Appends session submission (session.step (.append submission)) := by
  rcases session with ⟨log, volume⟩
  cases hvalue : submission.toValue with
  | error run =>
      have hunwritable : ¬ submission.Writable := by
        rintro ⟨value, hsome, -⟩
        rw [hvalue] at hsome
        cases hsome
      simp only [step, hvalue]
      exact .unwritable rfl hunwritable
  | ok value =>
      have happends := log.appends value
      simp only [step, hvalue]
      generalize log.append value = outcome at happends
      cases happends with
      | unwritable hfault =>
          refine .unwritable rfl ?_
          rintro ⟨other, hsome, hnone⟩
          rw [hvalue] at hsome
          cases hsome
          exact hfault hnone
      | shut hwritten hhandle => exact .shut ⟨value, hvalue, hwritten⟩ hhandle
      | failed hwritten hhandle hfails hpieces _ =>
          exact .failed ⟨value, hvalue, hwritten⟩ hhandle hfails hpieces
      | taken hwritten hhandle hpieces _ => exact .taken hvalue hwritten hhandle hpieces

/-- What has a written form is taken by an open log, unless an attempt to write is to fail. -/
theorem append_accepted {session : Session} {submission : Submission} (hwritable : submission.Writable)
    (haccepts : session.log.accepts = true) :
    (session.step (.append submission)).1 = .ok () := by
  have happends := session.appends submission
  generalize session.step (.append submission) = outcome at happends
  cases happends with
  | unwritable _ hunwritable => exact absurd hwritable hunwritable
  | shut _ hnone => simp [Log.accepts, hnone] at haccepts
  | failed _ hhandle hfails _ => simp [Log.accepts, hhandle, hfails] at haccepts
  | taken _ _ _ _ => rfl

/-- What is not taken adds nothing: it has no written form, or else it is refused.  It is the log
that refuses it, unless the log is half closed. -/
theorem append_rejected {session : Session} {submission : Submission} {error : DeedError}
    (herror : (session.step (.append submission)).1 = .error error) :
    (session.step (.append submission)).2.volume = session.volume ∧
      (session.step (.append submission)).2.log.pendingOctets = session.log.pendingOctets ∧
      (session.step (.append submission)).2.log.appended = session.log.appended ∧
      (error.isEncoding = true ↔ ¬ submission.Writable) ∧
      (error.isEncoding = false → session.log.accepts = false ∧
        ∃ refusal, error = .append (.refused refusal) ∧
          (refusal.isOwn = true ↔ session.log.isHalfClosed = false)) := by
  have happends := session.appends submission
  generalize session.step (.append submission) = outcome at herror happends
  cases happends with
  | unwritable hencoding hunwritable =>
      cases herror
      exact ⟨rfl, rfl, rfl, ⟨fun _ => hunwritable, fun _ => hencoding⟩, by simp [hencoding]⟩
  | shut hwritable hnone =>
      cases herror
      refine ⟨rfl, rfl, rfl, ⟨fun hencoding => ?_, fun hno => absurd hwritable hno⟩,
        fun _ => ⟨?_, _, rfl, ?_⟩⟩
      · cases hencoding
      · simp [Log.accepts, hnone]
      · rw [Log.refusal, Log.isHalfClosed, hnone, Option.isNone_none, Bool.true_and]
        cases session.log.halfClosed <;> simp [LogError.isOwn]
  | failed hwritable hhandle hfails hpieces =>
      cases herror
      refine ⟨rfl, ?_, rfl, ⟨fun hencoding => ?_, fun hno => absurd hwritable hno⟩,
        fun _ => ⟨?_, _, rfl, ?_⟩⟩
      · simp [Log.pendingOctets, hhandle, ← Handle.flatten_pieces, hpieces]
      · cases hencoding
      · simp [Log.accepts, hhandle, hfails]
      · simp [Log.isHalfClosed, hhandle, LogError.isOwn]
  | taken _ _ _ _ => cases herror

/-- The values that were taken have written forms. -/
theorem encodeFault_of_mem_taken {session : Session} {deeds : List Deed} {value : Value}
    (hvalue : value ∈ (session.run deeds).1.taken) : value.encodeFault? = none := by
  induction deeds generalizing session with
  | nil => cases hvalue
  | cons deed deeds ih =>
      simp only [run, Doings.taken, List.filterMap_cons] at hvalue
      split at hvalue
      · exact ih hvalue
      · rename_i found hfound
        rcases List.mem_cons.mp hvalue with rfl | hlater
        · cases deed with
          | append submission =>
              have happends := session.appends submission
              generalize session.step (.append submission) = outcome at hfound happends
              cases happends with
              | unwritable _ _ => cases hfound
              | shut _ _ => cases hfound
              | failed _ _ _ _ => cases hfound
              | taken hsome hwritten _ _ =>
                  simp only [hsome] at hfound
                  cases hfound
                  exact hwritten
          | _ => cases hfound
        · exact ih hlater

/-! ## A log whose file is closed -/

variable {session : Session}

/-- Once its file is closed a log leaves it alone, and refuses whatever has a written form;
only closing changes the log. -/
theorem step_shut (hshut : session.log.handle? = none) (deed : Deed) :
    (session.step deed).2.log =
        (if deed = .close then { session.log with halfClosed := false } else session.log) ∧
      (session.step deed).2.volume.place = session.volume.place ∧
      ∀ submission, deed = .append submission → submission.Writable →
        (session.step deed).1 = .error (.append (.refused session.log.refusal)) := by
  cases deed with
  | append submission =>
      have happends := session.appends submission
      generalize session.step (.append submission) = outcome at happends
      cases happends with
      | unwritable _ hunwritable =>
          refine ⟨rfl, rfl, fun other hsame hwritable => ?_⟩
          cases hsame
          exact absurd hwritable hunwritable
      | shut _ _ => exact ⟨rfl, rfl, fun _ _ _ => rfl⟩
      | failed _ hhandle _ _ =>
          rw [hshut] at hhandle
          cases hhandle
      | taken _ _ hhandle _ =>
          rw [hshut] at hhandle
          cases hhandle
  | flush =>
      simp only [step, Log.flush_shut hshut]
      exact ⟨rfl, trivial, fun _ hsame => nomatch hsame⟩
  | tick =>
      obtain ⟨hlog, hvolume, -⟩ := session.log.tick_spec session.volume
      simp only [step, hlog, hvolume, Log.flush_shut hshut]
      exact ⟨rfl, trivial, fun _ hsame => nomatch hsame⟩
  | close =>
      simp only [step, Log.close_shut hshut]
      exact ⟨rfl, trivial, fun _ hsame => nomatch hsame⟩
  | obstruct faults =>
      refine ⟨?_, rfl, fun _ hsame => nomatch hsame⟩
      rw [if_neg (by simp)]
      simp only [step, Log.obstruct, hshut, Option.map_none]
      rw [← hshut]
  | setSyncFails fails => exact ⟨rfl, rfl, fun _ hsame => nomatch hsame⟩

/-- Once its file is closed a log leaves it alone, whatever is done. -/
theorem run_shut_place (hshut : session.log.handle? = none) (deeds : List Deed) :
    (session.run deeds).2.volume.place = session.volume.place := by
  induction deeds generalizing session with
  | nil => rfl
  | cons deed deeds ih =>
      obtain ⟨hlog, hplace, -⟩ := step_shut hshut deed
      have hstill : (session.step deed).2.log.handle? = none := by
        rw [hlog]
        split <;> exact hshut
      exact (ih hstill).trans hplace

/-- A log whose file is closed goes on refusing in the same way whatever has a written form,
at least until it is closed once more if it is half closed. -/
theorem run_shut (hshut : session.log.handle? = none) (deeds : List Deed)
    (hstays : session.log.halfClosed = false ∨ .close ∉ deeds) :
    (session.run deeds).2.log = session.log ∧
      ∀ submission result, (.append submission, result) ∈ (session.run deeds).1 →
        submission.Writable → result = .error (.append (.refused session.log.refusal)) := by
  induction deeds generalizing session with
  | nil => exact ⟨rfl, fun _ _ hmem => absurd hmem List.not_mem_nil⟩
  | cons deed deeds ih =>
      obtain ⟨hlog, -, hrefused⟩ := step_shut hshut deed
      have hsame : (session.step deed).2.log = session.log := by
        rw [hlog]
        split
        · rename_i hclose
          have hwhole : session.log.halfClosed = false :=
            hstays.resolve_right fun hnone => hnone (hclose ▸ List.mem_cons_self)
          rw [← hwhole]
        · rfl
      have hlater : (session.step deed).2.log.halfClosed = false ∨ .close ∉ deeds := by
        rw [hsame]
        exact hstays.imp_right fun hnone hclose => hnone (List.mem_cons_of_mem _ hclose)
      obtain ⟨hlast, hrest⟩ := ih (hsame ▸ hshut) hlater
      refine ⟨hlast.trans hsame, fun submission result hmem hwritable => ?_⟩
      rcases List.mem_cons.mp hmem with hfirst | hlater
      · obtain ⟨hdeed, rfl⟩ := Prod.mk.inj hfirst
        exact hrefused submission hdeed.symm hwritable
      · rw [← hsame]
        exact hrest submission result hlater hwritable

/-! ## A log whose file can be written -/

/-- As long as nothing is to obstruct writing, no attempt to write is to fail, and closing does
not leave the log half closed. -/
theorem step_faultless (hfaultless : session.log.faultless = true)
    (hwhole : session.log.isHalfClosed = false) {deed : Deed}
    (hdeed : ∀ faults, deed = .obstruct faults → true ∉ faults) :
    (session.step deed).2.log.faultless = true ∧
      (session.step deed).2.log.isHalfClosed = false := by
  obtain ⟨-, hflushed, -⟩ := session.log.flush_frame session.volume
  cases deed with
  | append submission =>
      simp only [step]
      split
      · exact ⟨hfaultless, hwhole⟩
      · rename_i value hvalue
        have hkept := Log.faultless_append hfaultless value
        have hsame := (session.log.isHalfClosed_append value).trans hwhole
        split <;> rename_i happend <;> rw [happend] at hkept hsame <;> exact ⟨hkept, hsame⟩
  | flush => exact ⟨Log.faultless_flush hfaultless _, hflushed.trans hwhole⟩
  | tick =>
      obtain ⟨hlog, -, -⟩ := session.log.tick_spec session.volume
      simp only [step, hlog]
      exact ⟨Log.faultless_flush hfaultless _, hflushed.trans hwhole⟩
  | close =>
      refine ⟨?_, Log.whole_close hfaultless _⟩
      simp only [step, Log.faultless, Log.handle_close]
      rfl
  | obstruct faults =>
      have hnone := hdeed faults rfl
      simp only [step, Log.obstruct, Log.faultless, Log.isHalfClosed] at hwhole ⊢
      cases hhandle : session.log.handle? with
      | none =>
          rw [hhandle] at hwhole
          exact ⟨rfl, hwhole⟩
      | some handle => simp [Handle.works, hnone]
  | setSyncFails fails => exact ⟨hfaultless, hwhole⟩

/-- So it is throughout. -/
theorem run_faultless (hfaultless : session.log.faultless = true)
    (hwhole : session.log.isHalfClosed = false) {deeds : List Deed}
    (hdeeds : ∀ deed ∈ deeds, ∀ faults, deed = .obstruct faults → true ∉ faults) :
    (session.run deeds).2.log.faultless = true ∧
      (session.run deeds).2.log.isHalfClosed = false := by
  induction deeds generalizing session with
  | nil => exact ⟨hfaultless, hwhole⟩
  | cons deed deeds ih =>
      obtain ⟨hfirst, hrest⟩ := List.forall_mem_cons.mp hdeeds
      obtain ⟨hnext, hstill⟩ := step_faultless hfaultless hwhole hfirst
      exact ih hnext hstill hrest

/-! ## Keeping account of what has been taken -/

/-- The file of a log holds some octets and the first of the records it was given, the next
ones wait, and the last ones are lost. -/
structure Holds (session : Session) (valid : Bytes) (given lost : List Bytes) : Prop where
  kept : ∃ moved, session.volume.place = .file (valid ++ moved.flatten) ∧
    moved ++ session.log.pieces ++ lost = given
  shut : lost ≠ [] → session.log.handle? = none

variable {valid : Bytes} {given lost : List Bytes}

/-- Nothing is taken but what is given to a log. -/
theorem taken_of_ne_append {deed : Deed} (hdeed : ∀ submission, deed ≠ .append submission)
    (result : Except DeedError Unit) : Doings.taken [(deed, result)] = [] := by
  cases deed with
  | append submission => exact absurd rfl (hdeed submission)
  | _ => rfl

/-- Every deed counts what the log takes, whatever becomes of the file. -/
theorem appended_step (session : Session) (deed : Deed) :
    (session.step deed).2.log.appended =
      session.log.appended + (Doings.taken [(deed, (session.step deed).1)]).length := by
  cases deed with
  | append submission =>
      have happends := session.appends submission
      generalize session.step (.append submission) = outcome at happends
      cases happends with
      | unwritable _ _ => rfl
      | shut _ _ => rfl
      | failed _ _ _ _ => rfl
      | taken hvalue _ _ _ => simp [Doings.taken, hvalue, Except.toOption]
  | flush => exact (session.log.flush_frame session.volume).2.2
  | tick =>
      obtain ⟨hlog, -, -⟩ := session.log.tick_spec session.volume
      simp only [step, hlog]
      exact (session.log.flush_frame session.volume).2.2
  | close =>
      simp only [step, Log.close]
      split <;> rfl
  | obstruct faults => rfl
  | setSyncFails fails => rfl

/-- A flush keeps account of what has been taken. -/
theorem Holds.flush (hholds : session.Holds valid given lost) :
    Holds ⟨(session.log.flush session.volume).log, (session.log.flush session.volume).volume⟩
      valid given lost := by
  obtain ⟨⟨moved, hplace, hgiven⟩, hshut⟩ := hholds
  obtain ⟨more, hvolume, hpieces, -⟩ := session.log.flush_spec hplace
  refine ⟨⟨moved ++ more, ?_, ?_⟩, fun hlost => ?_⟩
  · rw [hvolume, List.flatten_append, List.append_assoc]
  · rw [List.append_assoc moved, hpieces, hgiven]
  · rw [Log.flush_shut (hshut hlost)]
    exact hshut hlost

/-- Closing keeps account of what has been taken, and loses nothing unless it fails
halfway. -/
theorem Holds.close (hholds : session.Holds valid given lost) :
    ∃ lost', Holds ⟨(session.log.close session.volume).log,
        (session.log.close session.volume).volume⟩ valid given lost' ∧
      ((∀ reason, (session.log.close session.volume).result ≠ .error (.cannotClose reason)) →
        lost' = lost) := by
  obtain ⟨⟨moved, hplace, hgiven⟩, hshut⟩ := hholds
  obtain ⟨more, hvolume, ⟨rest, hrest⟩, hwhole⟩ := session.log.close_spec hplace
  have hnone := session.log.handle_close session.volume
  have hempty : (session.log.close session.volume).log.pieces = [] := by
    rw [Log.pieces, hnone]
    rfl
  refine ⟨rest ++ lost, ⟨⟨moved ++ more, ?_, ?_⟩, fun _ => hnone⟩, fun hresult => ?_⟩
  · rw [hvolume, List.flatten_append, List.append_assoc]
  · rw [hempty, List.append_nil, ← hgiven, ← hrest]
    simp only [List.append_assoc]
  · have hclosed : (session.log.close session.volume).log.isHalfClosed = false := by
      rw [Bool.eq_false_iff]
      intro hhalf
      obtain ⟨reason, hreason⟩ := (session.log.close_halfway session.volume).mp hhalf
      exact hresult reason hreason
    have hnothing : rest = [] := by simpa [hwhole hclosed] using hrest
    rw [hnothing, List.nil_append]

/-- What a log takes is added to what it was given, and nothing else is; nothing is lost
unless a closing fails halfway. -/
theorem Holds.step (hholds : session.Holds valid given lost) (deed : Deed) :
    ∃ lost', (session.step deed).2.Holds valid
        (given ++ (Doings.taken [(deed, (session.step deed).1)]).map Value.wire) lost' ∧
      (Doings.ClosedWhole [(deed, (session.step deed).1)] → lost' = lost) := by
  cases deed with
  | append submission =>
      obtain ⟨⟨moved, hplace, hgiven⟩, hshut⟩ := hholds
      refine ⟨lost, ?_, fun _ => rfl⟩
      have happends := session.appends submission
      generalize session.step (.append submission) = outcome at happends
      cases happends with
      | unwritable _ _ =>
          exact ⟨⟨moved, hplace, by simpa [Doings.taken] using hgiven⟩, hshut⟩
      | shut _ _ => exact ⟨⟨moved, hplace, by simpa [Doings.taken] using hgiven⟩, hshut⟩
      | failed _ hhandle _ hpieces =>
          rw [Log.pieces, hhandle] at hgiven
          refine ⟨⟨moved, hplace, ?_⟩, fun hlost => ?_⟩
          · simpa [Doings.taken, Log.pieces, hpieces] using hgiven
          · rw [hshut hlost] at hhandle
            cases hhandle
      | taken hvalue _ hhandle hpieces =>
          have hnone : lost = [] := by
            by_contra hlost
            rw [hshut hlost] at hhandle
            cases hhandle
          subst hnone
          rw [Log.pieces, hhandle] at hgiven
          refine ⟨⟨moved, hplace, ?_⟩, fun hlost => absurd rfl hlost⟩
          rw [← hgiven]
          simp [Doings.taken, Log.pieces, hvalue, hpieces, Except.toOption]
  | flush =>
      rw [taken_of_ne_append (by simp), List.map_nil, List.append_nil]
      exact ⟨lost, hholds.flush, fun _ => rfl⟩
  | tick =>
      obtain ⟨hlog, hvolume, -⟩ := session.log.tick_spec session.volume
      rw [taken_of_ne_append (by simp), List.map_nil, List.append_nil]
      refine ⟨lost, ?_, fun _ => rfl⟩
      simp only [Session.step, hlog, hvolume]
      exact hholds.flush
  | close =>
      rw [taken_of_ne_append (by simp), List.map_nil, List.append_nil]
      obtain ⟨lost', hclosed, hwhole⟩ := hholds.close
      refine ⟨lost', hclosed, fun hnot => hwhole fun reason hreason => hnot reason ?_⟩
      simp [Session.step, hreason, Except.mapError]
  | obstruct faults =>
      obtain ⟨⟨moved, hplace, hgiven⟩, hshut⟩ := hholds
      have hpieces : (session.log.obstruct faults).pieces = session.log.pieces := by
        unfold Log.pieces Log.obstruct
        cases session.log.handle? <;> rfl
      refine ⟨lost, ⟨⟨moved, hplace, ?_⟩, fun hlost => ?_⟩, fun _ => rfl⟩
      · simpa [Doings.taken, Session.step, hpieces] using hgiven
      · simp [Session.step, Log.obstruct, hshut hlost]
  | setSyncFails fails =>
      obtain ⟨⟨moved, hplace, hgiven⟩, hshut⟩ := hholds
      exact ⟨lost, ⟨⟨moved, hplace, by simpa [Doings.taken, Session.step] using hgiven⟩, hshut⟩,
        fun _ => rfl⟩

/-! ## Runs -/

/-- What is taken by a first deed is taken before what is taken later. -/
theorem taken_cons (done : Deed × Except DeedError Unit) (doings : Doings) :
    Doings.taken (done :: doings) = Doings.taken [done] ++ doings.taken := by
  unfold Doings.taken
  rw [← List.filterMap_append, List.singleton_append]

/-- Later deeds go on from what the others have left. -/
theorem run_append (session : Session) (deeds later : List Deed) :
    session.run (deeds ++ later) =
      ((session.run deeds).1 ++ ((session.run deeds).2.run later).1,
        ((session.run deeds).2.run later).2) := by
  induction deeds generalizing session with
  | nil => rfl
  | cons deed deeds ih => simp only [List.cons_append, run, ih]

/-- What deeds and later deeds take. -/
theorem taken_run_append (session : Session) (deeds later : List Deed) :
    (session.run (deeds ++ later)).1.taken =
      (session.run deeds).1.taken ++ ((session.run deeds).2.run later).1.taken := by
  rw [run_append]
  exact List.filterMap_append

/-- A log has counted what it has taken, whatever becomes of the file. -/
theorem appended_run (session : Session) (deeds : List Deed) :
    (session.run deeds).2.log.appended =
      session.log.appended + (session.run deeds).1.taken.length := by
  induction deeds generalizing session with
  | nil => rfl
  | cons deed deeds ih =>
      have hfirst := session.appended_step deed
      have hlater := ih (session.step deed).2
      rw [Session.run, taken_cons, List.length_append, ← Nat.add_assoc, ← hfirst]
      exact hlater

/-- Whatever is done, account is kept of what has been taken, and nothing is lost unless a
closing fails halfway. -/
theorem Holds.run (hholds : session.Holds valid given lost) (deeds : List Deed) :
    ∃ lost', (session.run deeds).2.Holds valid
        (given ++ (session.run deeds).1.taken.map Value.wire) lost' ∧
      ((session.run deeds).1.ClosedWhole → lost' = lost) := by
  induction deeds generalizing session given lost with
  | nil => exact ⟨lost, by simpa [Session.run, Doings.taken] using hholds, fun _ => rfl⟩
  | cons deed deeds ih =>
      obtain ⟨first, hfirst, hsame⟩ := hholds.step deed
      obtain ⟨last, hlast, hlater⟩ := ih hfirst
      refine ⟨last, ?_, fun hwhole => ?_⟩
      · rw [Session.run, taken_cons, List.map_append, ← List.append_assoc]
        exact hlast
      · rw [hlater fun reason hmem => hwhole reason (List.mem_cons_of_mem _ hmem)]
        refine hsame fun reason hmem => hwhole reason ?_
        exact List.mem_singleton.mp hmem ▸ List.mem_cons_self

/-- If a log was given the written forms of values, then the first of these are in the file,
the next ones wait, and no others if nothing is lost. -/
theorem Holds.values {values : List Value}
    (hholds : session.Holds valid (values.map Value.wire) lost) :
    ∃ written waiting : List Value,
      session.volume.place = .file (valid ++ written.flatMap Value.wire) ∧
      session.log.pendingOctets = waiting.flatMap Value.wire ∧
      written ++ waiting <+: values ∧ (lost = [] → written ++ waiting = values) := by
  obtain ⟨moved, hplace, hgiven⟩ := hholds.kept
  obtain ⟨kept, gone, rfl, hkept, hgone⟩ := List.map_eq_append_iff.mp hgiven.symm
  obtain ⟨written, waiting, rfl, rfl, hwaiting⟩ := List.map_eq_append_iff.mp hkept
  refine ⟨written, waiting, ?_, ?_, List.prefix_append _ _, fun hnone => ?_⟩
  · rw [hplace, List.flatMap_def]
  · rw [← Log.flatten_pieces, ← hwaiting, List.flatMap_def]
  · rw [hnone, List.map_eq_nil_iff] at hgone
    rw [hgone, List.append_nil]

/-- Nothing waits after closing, after a flush that succeeds, and after one before which no
attempt to write was to fail. -/
theorem step_settles {content : Bytes} (hplace : session.volume.place = .file content)
    {deed : Deed} (hsettles : deed.settles = true)
    (hdone : session.log.faultless = true ∨ deed ≠ .tick ∧ (session.step deed).1 = .ok ()) :
    (session.step deed).2.log.pieces = [] := by
  obtain ⟨moved, -, -, hempty⟩ := session.log.flush_spec hplace
  cases deed with
  | flush =>
      refine hempty (hdone.symm.imp_left fun hresult => ?_)
      have hok := hresult.2
      simp only [step] at hok
      cases hflush : (session.log.flush session.volume).result with
      | ok done => rfl
      | error error => simp [hflush, Except.mapError] at hok
  | tick =>
      obtain ⟨hlog, -, -⟩ := session.log.tick_spec session.volume
      simp only [step, hlog]
      exact hempty (.inr (hdone.resolve_right fun hnot => hnot.1 rfl))
  | close =>
      simp only [step, Log.pieces, session.log.handle_close session.volume]
      rfl
  | append submission => cases hsettles
  | obstruct faults => cases hsettles
  | setSyncFails fails => cases hsettles

/-- What an open log has kept after some deeds that have ended in some way, if its file held
whole records when it was opened. -/
structure Kept (log : Log) (valid : Bytes) (start : Session) (deeds : List Deed)
    (doings : Doings) (last : Session) : Prop where
  /-- In the file there is what was there at first, and behind it the first of the values that
  were taken, in order.  The next ones wait, and no others unless a closing failed halfway. -/
  account : ∃ written waiting : List Value,
    last.volume.place = .file (valid ++ written.flatMap Value.wire) ∧
      last.log.pendingOctets = waiting.flatMap Value.wire ∧
      written ++ waiting <+: doings.taken ∧ (doings.ClosedWhole → written ++ waiting = doings.taken)
  /-- A flush or closing leaves all values that were taken in the file, if it succeeds, and if no
  attempt to write was to fail then even if it is reported as failed.  So does a round of the
  flusher in this case. -/
  settled : ∀ before deed, deeds = before ++ [deed] → deed.settles = true → doings.ClosedWhole →
    ((start.run before).2.log.faultless = true ∨
      deed ≠ .tick ∧ ((start.run before).2.step deed).1 = .ok ()) →
    last.volume.place = .file (valid ++ doings.taken.flatMap Value.wire)
  /-- The values that were taken have been counted. -/
  count_eq : last.log.appended = doings.taken.length
  /-- What has a written form is taken by an open log, unless an attempt to write is to fail. -/
  accepted : ∀ submission, submission.Writable → last.log.accepts = true →
    (last.step (.append submission)).1 = .ok ()
  /-- What is not taken adds nothing, not even later: it has no written form, or else it is
  refused.  It is the log that refuses it, unless the log is half closed. -/
  rejected : ∀ submission error, (last.step (.append submission)).1 = .error error →
    (last.step (.append submission)).2.volume = last.volume ∧
      (last.step (.append submission)).2.log.pendingOctets = last.log.pendingOctets ∧
      (last.step (.append submission)).2.log.appended = last.log.appended ∧
      (error.isEncoding = true ↔ ¬ submission.Writable) ∧
      (error.isEncoding = false → last.log.accepts = false ∧
        ∃ refusal, error = .append (.refused refusal) ∧
          (refusal.isOwn = true ↔ last.log.isHalfClosed = false))
  /-- The background flusher goes on unless the log is half closed, whatever fails, and neither
  adds octets nor loses any. -/
  flusher : last.log.isHalfClosed = false → ∀ rounds,
    (last.log.ticks last.volume rounds).result = .ok () ∧
      (last.log.ticks last.volume rounds).log.written (last.log.ticks last.volume rounds).volume =
        last.log.written last.volume
  /-- Once the log has been closed, however that ended, its file does not change. -/
  fixed : ∀ before after, deeds = before ++ .close :: after →
    last.volume.place = (start.run (before ++ [.close])).2.volume.place
  /-- Closing leaves the log half closed exactly if it fails halfway, and only if an attempt to
  write was to fail. -/
  halfway : ∀ before after, deeds = before ++ .close :: after →
    ((start.run (before ++ [.close])).2.log.isHalfClosed = true ↔
        ∃ reason, ((start.run before).2.step .close).1 = .error (.sync (.cannotClose reason))) ∧
      ((start.run before).2.log.faultless = true →
        (start.run (before ++ [.close])).2.log.isHalfClosed = false)
  /-- Otherwise the log is closed and stays so, whether or not closing was reported as failed,
  and refuses whatever has a written form. -/
  closed : ∀ before after, deeds = before ++ .close :: after →
    (start.run (before ++ [.close])).2.log.isHalfClosed = false →
    last.log.isOpen = false ∧
      ∀ submission result,
        (.append submission, result) ∈ ((start.run (before ++ [.close])).2.run after).1 →
        submission.Writable → ∃ path, result = .error (.append (.refused (.closed path)))
  /-- A log that is half closed counts as open until it is closed once more, and it is its file
  that refuses whatever has a written form. -/
  halfClosed : ∀ before after, deeds = before ++ .close :: after →
    (start.run (before ++ [.close])).2.log.isHalfClosed = true → .close ∉ after →
    last.log.isOpen = true ∧
      ∀ submission result,
        (.append submission, result) ∈ ((start.run (before ++ [.close])).2.run after).1 →
        submission.Writable → result = .error (.append (.refused .writeToShut))
  /-- When the file holds the first of the values that were taken, and these keep within the
  limits, then opening the file replays the records of before and these values. -/
  reopened : ∀ written, written <+: doings.taken →
    (∀ value ∈ written, value.Fits log.limits log.limits.depth) →
    last.volume.place = .file (valid ++ written.flatMap Value.wire) →
    ∀ other : Log, other.limits = log.limits →
      (∃ again, (other.opening last.volume .empty).result = .ok again ∧
        again.replayed = (Command.knownAmong
          ((decodeAll log.limits valid).values.map Prod.fst ++ written)).length) ∧
      (other.opening last.volume .empty).keyspace =
        Keyspace.empty.dispatchAll (Command.knownAmong
          ((decodeAll log.limits valid).values.map Prod.fst ++ written)) ∧
      (other.opening last.volume .empty).volume = last.volume

/-- A file that holds whole records, and behind them the written forms of values that keep within
the limits, is opened and replayed whole. -/
theorem reopening_joined {log other : Log} {records : List Record} {written : List Value}
    (hrecords : ∀ record ∈ records, record.Holds log.limits)
    (hwritten : ∀ value ∈ written, value.encodeFault? = none)
    (hfits : ∀ value ∈ written, value.Fits log.limits log.limits.depth)
    (hlimits : other.limits = log.limits) (syncFails : Bool) :
    let volume : Volume :=
      ⟨.file (Record.joined records ++ written.flatMap Value.wire), syncFails⟩
    let values := (decodeAll log.limits (Record.joined records)).values.map Prod.fst ++ written
    (∃ again, (other.opening volume .empty).result = .ok again ∧
      again.replayed = (Command.knownAmong values).length) ∧
      (other.opening volume .empty).keyspace =
        Keyspace.empty.dispatchAll (Command.knownAmong values) ∧
      (other.opening volume .empty).volume = volume := by
  have hall : ∀ record ∈ records ++ written.map Value.written, record.Holds other.limits := by
    intro record hrecord
    rw [hlimits]
    rcases List.mem_append.mp hrecord with hold | hnew
    · exact hrecords record hold
    · obtain ⟨value, hvalue, rfl⟩ := List.mem_map.mp hnew
      exact Value.written_holds (hwritten value hvalue) (hfits value hvalue)
  have hvalues : (decodeAll log.limits (Record.joined records)).values.map Prod.fst ++ written =
      (records ++ written.map Value.written).map Record.value := by
    rw [(splits_joined hrecords).values_decodeAll, List.map_append, List.map_map]
    exact congrArg _ (List.map_id _).symm
  have hjoined : Record.joined records ++ written.flatMap Value.wire =
      Record.joined (records ++ written.map Value.written) := by
    rw [Record.joined_append, Record.joined, Record.joined, List.flatMap_map]
    rfl
  obtain ⟨hresult, hkeyspace, hfile, -⟩ := Log.opening_joined hall syncFails .empty
  rw [hvalues, hjoined]
  exact ⟨⟨_, hresult, rfl⟩, hkeyspace, hfile⟩

/-- An open log whose file held whole records keeps them and what it takes. -/
theorem kept_of_holds {log : Log} {records : List Record} {start : Session}
    (hrecords : ∀ record ∈ records, record.Holds log.limits)
    (hholds : start.Holds (Record.joined records) [] []) (hcount : start.log.appended = 0)
    (deeds : List Deed) :
    Kept log (Record.joined records) start deeds (start.run deeds).1 (start.run deeds).2 := by
  obtain ⟨lost, hlast, hlost⟩ := hholds.run deeds
  rw [List.nil_append] at hlast
  have hshut : ∀ before, (start.run (before ++ [.close])).2.log.handle? = none := by
    intro before
    rw [run_append]
    exact Log.handle_close _ _
  have hhalfClosed : ∀ before, (start.run (before ++ [.close])).2.log.isHalfClosed =
      (start.run (before ++ [.close])).2.log.halfClosed := by
    intro before
    rw [Log.isHalfClosed, hshut, Option.isNone_none, Bool.true_and]
  have hsplit : ∀ before after, start.run (before ++ .close :: after) =
      start.run (before ++ [.close] ++ after) := by
    intro before after
    rw [List.append_assoc, List.singleton_append]
  constructor
  case account =>
    obtain ⟨written, waiting, hplace, hpending, hbegins, hall⟩ := hlast.values
    exact ⟨written, waiting, hplace, hpending, hbegins, fun hwhole => hall (hlost hwhole)⟩
  case settled =>
    rintro before deed rfl hsettles hwhole hdone
    obtain ⟨-, ⟨⟨earlier, hearlier, -⟩, -⟩, -⟩ := hholds.run before
    have hempty : (start.run (before ++ [deed])).2.log.pieces = [] := by
      rw [run_append]
      exact step_settles hearlier hsettles hdone
    obtain ⟨⟨moved, hplace, hgiven⟩, -⟩ := hlast
    rw [hempty, hlost hwhole, List.append_nil, List.append_nil] at hgiven
    rw [hplace, hgiven, List.flatMap_def]
  case count_eq => rw [appended_run, hcount, Nat.zero_add]
  case accepted => exact fun submission => append_accepted
  case rejected => exact fun submission error => append_rejected
  case flusher =>
    intro hwhole rounds
    obtain ⟨⟨moved, hplace, -⟩, -⟩ := hlast
    exact Log.ticks_spec hwhole hplace rounds
  case fixed =>
    rintro before after rfl
    rw [hsplit, run_append]
    exact run_shut_place (hshut before) after
  case halfway =>
    rintro before after -
    have hhalfway := (start.run before).2.log.close_halfway (start.run before).2.volume
    refine ⟨?_, fun hworks => ?_⟩
    · rw [run_append]
      refine hhalfway.trans (exists_congr fun reason => ?_)
      simp only [step]
      cases ((start.run before).2.log.close (start.run before).2.volume).result with
      | ok done => simp [Except.mapError]
      | error error => simp [Except.mapError]
    · rw [run_append]
      exact Log.whole_close hworks _
  case closed =>
    rintro before after rfl hwhole
    have hnot : (start.run (before ++ [.close])).2.log.halfClosed = false := by
      rw [← hhalfClosed, hwhole]
    obtain ⟨hlog, hrefused⟩ := run_shut (hshut before) after (.inl hnot)
    rw [hsplit, run_append]
    refine ⟨?_, fun submission result hmem hwritable =>
      ⟨(start.run (before ++ [.close])).2.log.path, ?_⟩⟩
    · simp [Log.isOpen, hlog, hshut, hnot]
    · rw [hrefused submission result hmem hwritable, Log.refusal, hnot]
      rfl
  case halfClosed =>
    rintro before after rfl hhalf hnever
    have his : (start.run (before ++ [.close])).2.log.halfClosed = true := by
      rw [← hhalfClosed, hhalf]
    obtain ⟨hlog, hrefused⟩ := run_shut (hshut before) after (.inr hnever)
    rw [hsplit, run_append]
    refine ⟨?_, fun submission result hmem hwritable => ?_⟩
    · simp [Log.isOpen, hlog, his]
    · rw [hrefused submission result hmem hwritable, Log.refusal, his]
      rfl
  case reopened =>
    intro written hbegins hfits hplace other hlimits
    have hwritten : ∀ value ∈ written, value.encodeFault? = none := fun value hvalue =>
      encodeFault_of_mem_taken (hbegins.subset hvalue)
    have hreopening := reopening_joined hrecords hwritten hfits hlimits
      (start.run deeds).2.volume.syncFails
    rw [← hplace] at hreopening
    exact hreopening

/-- Whatever is done to a log that has been opened, and whatever befalls its file, it
keeps the whole records of the file and what it takes, and nothing else. -/
theorem run_kept {log opened : Log} {content : Bytes} {syncFails : Bool}
    (hopening : (log.opening ⟨.file content, syncFails⟩ .empty).result = .ok opened)
    {start : Session}
    (hstart : start = ⟨opened, (log.opening ⟨.file content, syncFails⟩ .empty).volume⟩)
    (deeds : List Deed) :
    Kept log (content.take (decodeAll log.limits content).stop) start deeds
      (start.run deeds).1 (start.run deeds).2 := by
  rcases exists_splits log.limits content with ⟨records, rest, hsplits⟩
  have hcreate : (⟨.file content, syncFails⟩ : Volume).create = .ok ⟨.file content, syncFails⟩ :=
    rfl
  have hvalid : content.take (decodeAll log.limits content).stop = Record.joined records := by
    rw [hsplits.stop_decodeAll, hsplits.partition, List.take_left]
  cases hfailure : (Replay.conclude log.limits log.path rest
      ((Replay.start .empty).steps records)).failure? with
  | some error =>
      rw [(Log.opening_error hcreate rfl hsplits hfailure).1] at hopening
      cases hopening
  | none =>
      obtain ⟨hresult, hvolume⟩ := Log.opening_ok hcreate rfl hsplits hfailure
      rw [hresult] at hopening
      cases hopening
      subst hstart
      rw [hvalid, hvolume]
      refine kept_of_holds hsplits.holds ⟨⟨[], ?_, rfl⟩, fun hlost => absurd rfl hlost⟩ rfl deeds
      simp

/-- A log that holds a null and the beginning of another value is opened while flushes fail.  It
takes a removal, which a failing attempt keeps from the file for a while, refuses what has no
written form, and is closed; then it refuses a null. -/
theorem run_kept_faults :
    ∃ opened start deeds, ((Log.unopened "log.aof" .standard .one).opening
        ⟨.file [0x5F, 0x0D, 0x0A, 0x2A], true⟩ .empty).result = .ok opened ∧
      start = ⟨opened, ((Log.unopened "log.aof" .standard .one).opening
        ⟨.file [0x5F, 0x0D, 0x0A, 0x2A], true⟩ .empty).volume⟩ ∧
      deeds = [.append (.value (.array [.bulk (Bytes.ofString "DEL"), .bulk [0x6B]])),
        .obstruct [true], .tick, .append (.value (.simple [0x0A])),
        .append (.command ⟨[0xFF], [], none⟩), .close, .append (.value .null)] ∧
      Kept (.unopened "log.aof" .standard .one)
        (List.take (decodeAll .standard [0x5F, 0x0D, 0x0A, 0x2A]).stop [0x5F, 0x0D, 0x0A, 0x2A])
        start deeds (start.run deeds).1 (start.run deeds).2 :=
  ⟨_, _, _, rfl, rfl, rfl, run_kept rfl rfl _⟩

/-- A log takes a null and is closed while writing fails.  It still counts as open, its file is
empty, and the next null is refused by the closed file. -/
theorem closing_halfway :
    ∃ opened start doings last, ((Log.unopened "log.aof" .standard .one).opening
        ⟨.file [], false⟩ .empty).result = .ok opened ∧
      start = ⟨opened, ((Log.unopened "log.aof" .standard .one).opening
        ⟨.file [], false⟩ .empty).volume⟩ ∧
      Session.run start [.append (.value .null), .obstruct [true, true], .close,
        .append (.value .null)] = (doings, last) ∧
      Doings.taken doings = [.null] ∧ last.volume.place = .file [] ∧ last.log.isOpen = true ∧
      doings.getLast? =
        some (.append (.value .null), .error (.append (.refused .writeToShut))) :=
  ⟨_, _, _, _, rfl, rfl, rfl, rfl, rfl, rfl, rfl⟩

end Session

end DurableStore
