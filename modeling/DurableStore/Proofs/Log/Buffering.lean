import DurableStore.Log.Basic

/-!
# What waits in the buffer of a log

The records that a log has taken since its last flush are in its file or in its buffer, in
the order in which they were taken.  Neither an attempt to write that fails nor the refusal
of a record changes what they are.  A flush tells how far the file has come; closing does the
same, and what is not in the file by then is lost.

Main results:

- Theorem `Handle.drains`: how an attempt to empty the buffer can end.
- Theorem `Handle.pieces_take`: a record is taken whole, or nothing of it.
- Theorems `Log.flush_spec` and `Log.close_spec`: what flushing and closing move to the file.
- Theorem `Log.tick_spec` and `Log.ticks_spec`: a round of the background flusher is a flush
  that does not fail.
-/

namespace DurableStore

/-! ## The open end -/

namespace Handle

/-- The records that have been taken since the last flush, the oldest first. -/
def pieces (handle : Handle) : List Bytes :=
  (handle.pending ++ handle.passed).reverse

theorem flatten_pieces (handle : Handle) : handle.pieces.flatten = handle.pendingOctets := rfl

/-- How an attempt to empty the buffer can end, and what it leads to. -/
inductive Drains (handle : Handle) : Bool × Handle → Prop
  /-- Nothing is in the buffer. -/
  | idle (hempty : handle.pending = []) : Drains handle (true, handle)
  /-- The file takes what is in the buffer. -/
  | written (hwaits : handle.pending ≠ []) (hfaults : handle.faults.head? ≠ some true) :
      Drains handle (true, ⟨handle.pending ++ handle.passed, [], handle.faults.tail⟩)
  /-- The attempt fails. -/
  | failed (hwaits : handle.pending ≠ []) (hfaults : handle.faults.head? = some true) :
      Drains handle (false, { handle with faults := handle.faults.tail })

/-- An attempt to write fails if this is foreseen, and leaves everything where it was. -/
theorem write_fails {handle : Handle} (hfaults : handle.faults.head? = some true)
    (pieces : List Bytes) :
    handle.write pieces = (false, { handle with faults := handle.faults.tail }) := by
  obtain ⟨faults, hcons⟩ := List.head?_eq_some_iff.mp hfaults
  simp [write, hcons]

/-- An attempt to write that is not to fail hands the pieces to the file. -/
theorem write_succeeds {handle : Handle} (hfaults : handle.faults.head? ≠ some true)
    (pieces : List Bytes) :
    handle.write pieces =
      (true, { handle with passed := pieces ++ handle.passed, faults := handle.faults.tail }) := by
  unfold write
  split
  · rename_i hcons
    simp [hcons] at hfaults
  · rfl

/-- An attempt to empty the buffer finds nothing in it, succeeds or fails. -/
theorem drains (handle : Handle) : Drains handle handle.drain := by
  unfold drain
  cases hpending : handle.pending with
  | nil => exact .idle hpending
  | cons piece pieces =>
      have hwaits : handle.pending ≠ [] := by simp [hpending]
      rw [← hpending]
      by_cases hfaults : handle.faults.head? = some true
      · rw [write_fails hfaults]
        simpa [hpending] using Drains.failed hwaits hfaults
      · rw [write_succeeds hfaults]
        simpa [hpending] using Drains.written hwaits hfaults

/-- Emptying the buffer changes nothing about what has been taken. -/
theorem pieces_drain (handle : Handle) : handle.drain.2.pieces = handle.pieces := by
  have hdrains := handle.drains
  generalize handle.drain = outcome at hdrains
  cases hdrains with
  | idle _ => rfl
  | written _ _ => simp [pieces]
  | failed _ _ => rfl

/-- An attempt to empty the buffer that succeeds leaves nothing in it. -/
theorem pending_drain {handle : Handle} (hdone : handle.drain.1 = true) :
    handle.drain.2.pending = [] := by
  have hdrains := handle.drains
  generalize handle.drain = outcome at hdone hdrains
  cases hdrains with
  | idle hempty => exact hempty
  | written _ _ => rfl
  | failed _ _ => cases hdone

/-- After an attempt to empty the buffer that succeeds the file has all that has been taken. -/
theorem passedOctets_drain {handle : Handle} (hdone : handle.drain.1 = true) :
    handle.drain.2.passedOctets = handle.pendingOctets := by
  rw [← flatten_pieces, ← pieces_drain]
  simp [pieces, passedOctets, pending_drain hdone]

/-- An attempt to empty the buffer uses up at most one of the faults. -/
theorem faults_drain (handle : Handle) : handle.drain.2.faults <:+ handle.faults := by
  have hdrains := handle.drains
  generalize handle.drain = outcome at hdrains
  cases hdrains with
  | idle _ => exact List.suffix_rfl
  | written _ _ => exact List.tail_suffix _
  | failed _ _ => exact List.tail_suffix _

/-- A handle of which no attempt to write is to fail keeps this as faults are used up. -/
theorem works_of_suffix {handle later : Handle} (hworks : handle.works = true)
    (hsuffix : later.faults <:+ handle.faults) : later.works = true := by
  simp only [works, Bool.not_eq_true', List.contains_eq_mem, decide_eq_false_iff_not] at hworks ⊢
  exact fun hfault => hworks (hsuffix.subset hfault)

/-- If no attempt to write is to fail, then the buffer can be emptied. -/
theorem drain_works {handle : Handle} (hworks : handle.works = true) : handle.drain.1 = true := by
  have hdrains := handle.drains
  generalize handle.drain = outcome at hdrains
  cases hdrains with
  | idle _ => rfl
  | written _ _ => rfl
  | failed _ hfaults =>
      have hfault : true ∈ handle.faults := List.mem_of_mem_head? hfaults
      simp [works, hfault] at hworks

/-- A record is taken whole and stands behind the others, or nothing of it is, and this only
if an attempt to write was to fail. -/
theorem pieces_take (handle : Handle) (room : Nat) (octets : Bytes) :
    ((handle.take room octets).1 = true ∧
        (handle.take room octets).2.pieces = handle.pieces ++ [octets] ∨
      (handle.take room octets).1 = false ∧
        (handle.take room octets).2.pieces = handle.pieces ∧ handle.works = false) ∧
      (handle.take room octets).2.faults <:+ handle.faults := by
  have hpieces := handle.pieces_drain
  have hsuffix := handle.faults_drain
  have hunworking : ∀ later : Handle, later.faults <:+ handle.faults →
      later.faults.head? = some true → handle.works = false := by
    intro later hlater hfault
    have hmem : true ∈ handle.faults := hlater.subset (List.mem_of_mem_head? hfault)
    simp [works, hmem]
  by_cases hfits : handle.load + octets.length ≤ room
  · rw [take, if_pos hfits]
    exact ⟨.inl ⟨rfl, by simp [pieces]⟩, List.suffix_rfl⟩
  cases hdrained : handle.drain.1 with
  | false =>
      have hfails : handle.works = false := by
        have hdrains := handle.drains
        generalize handle.drain = outcome at hdrained hdrains
        cases hdrains with
        | failed _ hfaults => exact hunworking handle List.suffix_rfl hfaults
        | idle _ => cases hdrained
        | written _ _ => cases hdrained
      have htake : handle.take room octets = handle.drain := by
        simp only [take, if_neg hfits, hdrained, Bool.not_false, if_true]
      rw [htake]
      exact ⟨.inr ⟨hdrained, hpieces, hfails⟩, hsuffix⟩
  | true =>
      have hempty := pending_drain hdrained
      simp only [take, if_neg hfits, hdrained, Bool.not_true, Bool.false_eq_true, if_false]
      by_cases hroom : octets.length ≤ room
      · rw [if_pos hroom]
        refine ⟨.inl ⟨rfl, ?_⟩, hsuffix⟩
        rw [← hpieces]
        simp [pieces, hempty]
      rw [if_neg hroom]
      by_cases hfaults : handle.drain.2.faults.head? = some true
      · rw [write_fails hfaults]
        exact ⟨.inr ⟨rfl, hpieces, hunworking _ hsuffix hfaults⟩,
          (List.tail_suffix _).trans hsuffix⟩
      · rw [write_succeeds hfaults]
        refine ⟨.inl ⟨rfl, ?_⟩, (List.tail_suffix _).trans hsuffix⟩
        rw [← hpieces]
        simp [pieces, hempty]

end Handle

/-! ## Logs -/

namespace Log

variable {log : Log} {volume : Volume} {content : Bytes}

/-- The records that a log has taken since its last flush, the oldest first. -/
def pieces (log : Log) : List Bytes :=
  (log.handle?.map Handle.pieces).getD []

/-- The octets that a log has taken since its last flush. -/
def pendingOctets (log : Log) : Bytes :=
  (log.handle?.map Handle.pendingOctets).getD []

theorem flatten_pieces (log : Log) : log.pieces.flatten = log.pendingOctets := by
  unfold pieces pendingOctets
  cases log.handle? <;> rfl

/-- All octets that have been given to a log: those in its file and those that wait for the
next flush. -/
def written (log : Log) (volume : Volume) : Bytes :=
  (volume.content?).getD [] ++ log.pendingOctets

theorem written_of_place (hplace : volume.place = .file content) :
    log.written volume = content ++ log.pendingOctets := by
  simp only [written, Volume.content?, hplace, Option.getD_some]

/-- Whether a log takes values that have a written form, and goes on doing so. -/
def accepts (log : Log) : Bool :=
  log.handle?.any Handle.works

/-- Whether no attempt to write to the file of a log is to fail. -/
def faultless (log : Log) : Bool :=
  log.handle?.all Handle.works

/-- What a flush leads to while the file is open. -/
theorem flush_open {handle : Handle} (hhandle : log.handle? = some handle) (volume : Volume) :
    log.flush volume =
      { log := { log with handle? := some { handle.drain.2 with passed := [] } }
        volume := volume.write handle.drain.2.passedOctets
        notices := []
        result :=
          if handle.drain.1 && !volume.syncFails then .ok ()
          else .error (.cannotFlush log.path Volume.systemError) } := by
  simp only [flush, hhandle]

/-- A flush does nothing once the file is closed. -/
theorem flush_shut (hhandle : log.handle? = none) (volume : Volume) :
    log.flush volume =
      ⟨log, volume, [], if log.halfClosed then .error .flushOfShut else .ok ()⟩ := by
  simp only [flush, hhandle]

/-- What closing leads to while the file is open. -/
theorem close_open {handle : Handle} (hhandle : log.handle? = some handle) (volume : Volume) :
    log.close volume =
      { log := { log with handle? := none, halfClosed := !handle.drain.2.drain.1 }
        volume := volume.write handle.drain.2.drain.2.passedOctets
        notices :=
          if handle.drain.1 && !volume.syncFails then [.closedLog log.path] else []
        result :=
          if !handle.drain.2.drain.1 then .error (.cannotClose Volume.systemError)
          else if handle.drain.1 && !volume.syncFails then .ok ()
          else .error (.cannotFlushOnClose log.path Volume.systemError) } := by
  simp only [close, hhandle]

/-- Closing leaves the file alone once it is closed. -/
theorem close_shut (hhandle : log.handle? = none) (volume : Volume) :
    log.close volume =
      ⟨{ log with halfClosed := false }, volume, [],
        if log.halfClosed then .error .flushOfShut else .ok ()⟩ := by
  simp only [close, hhandle]

/-- A flush moves the first records into the file, and the others go on waiting.  All of them
are moved if it succeeds, and also if no attempt to write is to fail. -/
theorem flush_spec (log : Log) (hplace : volume.place = .file content) :
    ∃ moved, (log.flush volume).volume =
        { volume with place := .file (content ++ moved.flatten) } ∧
      moved ++ (log.flush volume).log.pieces = log.pieces ∧
      ((log.flush volume).result = .ok () ∨ log.faultless = true →
        (log.flush volume).log.pieces = []) := by
  cases hhandle : log.handle? with
  | none =>
      rw [flush_shut hhandle]
      exact ⟨[], by simp [← hplace], rfl, fun _ => by simp [pieces, hhandle]⟩
  | some handle =>
      have hpieces : log.pieces = handle.pieces := by rw [pieces, hhandle]; rfl
      have hfaultless : log.faultless = handle.works := by rw [faultless, hhandle]; rfl
      rw [flush_open hhandle, hpieces, hfaultless]
      refine ⟨handle.drain.2.passed.reverse, ?_, ?_, fun hsettles => ?_⟩
      · simp [Volume.write, hplace, Handle.passedOctets]
      · rw [← handle.pieces_drain]
        simp [pieces, Handle.pieces]
      · have hdone : handle.drain.1 = true := by
          rcases hsettles with hresult | hworks
          · cases hattempt : handle.drain.1 with
            | true => rfl
            | false => simp [hattempt] at hresult
          · exact Handle.drain_works hworks
        simp [pieces, Handle.pieces, Handle.pending_drain hdone]

/-- A flush neither adds octets nor loses any. -/
theorem written_flush (hplace : volume.place = .file content) :
    (log.flush volume).log.written (log.flush volume).volume = log.written volume := by
  obtain ⟨moved, hvolume, hpieces, -⟩ := log.flush_spec hplace
  rw [written_of_place (congrArg Volume.place hvolume), written_of_place hplace,
    ← flatten_pieces, ← flatten_pieces, ← hpieces, List.flatten_append, List.append_assoc]

/-- Closing leaves a log without an open end. -/
theorem handle_close (log : Log) (volume : Volume) : (log.close volume).log.handle? = none := by
  cases hhandle : log.handle? with
  | none => rw [close_shut hhandle, hhandle]
  | some handle => rw [close_open hhandle]

/-- If no attempt to write is to fail, then none is to fail after a flush. -/
theorem faultless_flush (hfaultless : log.faultless = true) (volume : Volume) :
    (log.flush volume).log.faultless = true := by
  cases hhandle : log.handle? with
  | none =>
      rw [flush_shut hhandle]
      exact hfaultless
  | some handle =>
      rw [faultless, hhandle] at hfaultless
      rw [flush_open hhandle]
      exact Handle.works_of_suffix hfaultless handle.faults_drain

/-- If no attempt to write is to fail, then closing does not leave the log half closed. -/
theorem whole_close (hfaultless : log.faultless = true) (volume : Volume) :
    (log.close volume).log.isHalfClosed = false := by
  cases hhandle : log.handle? with
  | none =>
      rw [close_shut hhandle]
      exact Bool.and_false _
  | some handle =>
      rw [faultless, hhandle] at hfaultless
      have hlater : handle.drain.2.works = true :=
        Handle.works_of_suffix hfaultless handle.faults_drain
      rw [close_open hhandle]
      simp [isHalfClosed, Handle.drain_works hlater]

/-- Closing moves the first records into the file, and all of them unless it leaves the log
half closed. -/
theorem close_spec (log : Log) (hplace : volume.place = .file content) :
    ∃ moved, (log.close volume).volume =
        { volume with place := .file (content ++ moved.flatten) } ∧
      moved <+: log.pieces ∧
      ((log.close volume).log.isHalfClosed = false → moved = log.pieces) := by
  cases hhandle : log.handle? with
  | none =>
      rw [close_shut hhandle]
      exact ⟨[], by simp [← hplace], List.nil_prefix, fun _ => by simp [pieces, hhandle]⟩
  | some handle =>
      have hpieces : log.pieces = handle.drain.2.drain.2.pieces := by
        rw [Handle.pieces_drain, Handle.pieces_drain, pieces, hhandle]
        rfl
      rw [close_open hhandle, hpieces]
      refine ⟨handle.drain.2.drain.2.passed.reverse, ?_, ?_, fun hwhole => ?_⟩
      · simp [Volume.write, hplace, Handle.passedOctets]
      · simp [Handle.pieces]
      · have hdone : handle.drain.2.drain.1 = true := by simpa [isHalfClosed] using hwhole
        simp [Handle.pieces, Handle.pending_drain hdone]

/-- Closing fails halfway exactly if it leaves the log half closed. -/
theorem close_halfway (log : Log) (volume : Volume) :
    (log.close volume).log.isHalfClosed = true ↔
      ∃ reason, (log.close volume).result = .error (.cannotClose reason) := by
  cases hhandle : log.handle? with
  | none =>
      rw [close_shut hhandle]
      cases log.halfClosed <;> simp [isHalfClosed]
  | some handle =>
      rw [close_open hhandle]
      cases handle.drain.2.drain.1 with
      | false => simp [isHalfClosed]
      | true =>
          simp only [isHalfClosed, Bool.not_true, Bool.and_false, Bool.false_eq_true, if_false,
            false_iff, not_exists]
          intro reason
          split <;> simp

/-- A flush leaves a log as open or closed as it was. -/
theorem flush_frame (log : Log) (volume : Volume) :
    (log.flush volume).log.isOpen = log.isOpen ∧
      (log.flush volume).log.isHalfClosed = log.isHalfClosed ∧
      (log.flush volume).log.appended = log.appended := by
  cases hhandle : log.handle? with
  | none =>
      rw [flush_shut hhandle]
      exact ⟨rfl, rfl, rfl⟩
  | some handle =>
      rw [flush_open hhandle]
      simp [isOpen, isHalfClosed, hhandle]

/-- A flush that fails while the log is not half closed is reported as a failure of the log. -/
theorem flush_isOwn (hwhole : log.isHalfClosed = false) {error : LogError}
    (hresult : (log.flush volume).result = .error error) : error.isOwn = true := by
  cases hhandle : log.handle? with
  | none =>
      have hclosed : log.halfClosed = false := by simpa [isHalfClosed, hhandle] using hwhole
      rw [flush_shut hhandle, hclosed] at hresult
      cases hresult
  | some handle =>
      rw [flush_open hhandle] at hresult
      simp only at hresult
      split at hresult
      · cases hresult
      · cases hresult
        rfl

/-- A round of the background flusher is a flush, and fails only if the log is half
closed. -/
theorem tick_spec (log : Log) (volume : Volume) :
    (log.tick volume).log = (log.flush volume).log ∧
      (log.tick volume).volume = (log.flush volume).volume ∧
      (log.isHalfClosed = false → (log.tick volume).result = .ok ()) := by
  cases hresult : (log.flush volume).result with
  | ok done =>
      simp only [tick, hresult]
      exact ⟨trivial, trivial, fun _ => trivial⟩
  | error error =>
      cases hown : error.isOwn with
      | true =>
          simp only [tick, hresult, hown, if_true]
          exact ⟨trivial, trivial, fun _ => trivial⟩
      | false =>
          simp only [tick, hresult, hown, Bool.false_eq_true, if_false]
          refine ⟨trivial, trivial, fun hwhole => ?_⟩
          rw [flush_isOwn hwhole hresult] at hown
          cases hown

/-- However many rounds the background flusher has, none of them fails unless the log is half
closed, and none of them adds octets or loses any. -/
theorem ticks_spec (hwhole : log.isHalfClosed = false) (hplace : volume.place = .file content)
    (rounds : Nat) :
    (log.ticks volume rounds).result = .ok () ∧
      (log.ticks volume rounds).log.written (log.ticks volume rounds).volume =
        log.written volume := by
  induction rounds generalizing log volume content with
  | zero => exact ⟨rfl, rfl⟩
  | succ rounds ih =>
      obtain ⟨hlog, hvolume, hresult⟩ := log.tick_spec volume
      obtain ⟨moved, hfile, -⟩ := log.flush_spec hplace
      have hstill : (log.tick volume).log.isHalfClosed = false := by
        rw [hlog, (log.flush_frame volume).2.1, hwhole]
      have hplace' : (log.tick volume).volume.place = .file (content ++ moved.flatten) := by
        rw [hvolume, hfile]
      obtain ⟨hlater, hsame⟩ := ih hstill hplace'
      rw [ticks]
      simp only [hresult hwhole]
      refine ⟨hlater, hsame.trans ?_⟩
      rw [hlog, hvolume, written_flush hplace]

end Log

end DurableStore
