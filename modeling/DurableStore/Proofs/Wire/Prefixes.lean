import DurableStore.Proofs.Wire.Steps

/-!
# Reading from a prefix of the input

Input arrives in pieces, so a reader often sees only the beginning of what a
peer will send.  This module shows that every reader of the wire format passes
one of three judgements on the octets it is given, and that no continuation of
them revokes it: a value has been read, the octets are malformed for good, or
the input ends too early and stays too short until it reaches a length that
the reader names.

Main results:

- Theorem `Judged.bind`: judgements compose along the steps of a reader.
- Theorem `readValue_judged`: every input of the value reader is judged.
- Theorem `readValue_reads`: a value that has been read is read again from
  its own octets, whatever follows them.
- Theorem `readValue_waits_of_prefix`: a proper prefix of the octets of a value
  is too short.
-/

namespace DurableStore

/-! ## Judgements -/

section Judgements

variable {ε ε' α β : Type}

/-- A reader reads a value from exactly the octets `used`, whatever follows. -/
def Reads (read : Reader ε α) (offset : Nat) (used : Bytes) (value : α) : Prop :=
  ∀ tail, read ⟨offset, used ++ tail⟩ = .ok (value, ⟨offset + used.length, tail⟩)

/-- A reader fails on the octets, whatever follows. -/
def Rejects (read : Reader ε α) (offset : Nat) (octets : Bytes) (error : ε) : Prop :=
  ∀ more, read ⟨offset, octets ++ more⟩ = .error error

/-- A reader finds every input too short that begins with the octets and ends
before the offset `least`. -/
def Waits (needed? : ε → Option Nat) (read : Reader ε α) (offset : Nat) (octets : Bytes)
    (least : Nat) : Prop :=
  ∀ more, offset + (octets ++ more).length < least →
    ∃ error, read ⟨offset, octets ++ more⟩ = .error error ∧ (needed? error).isSome

/-- The judgement of a reader on its input.  The function `needed?` tells the
errors that ask for more input from those that are final. -/
inductive Judged (needed? : ε → Option Nat) (read : Reader ε α) (offset : Nat)
    (octets : Bytes) : Prop
  /-- A value has been read. -/
  | reads (used tail : Bytes) (value : α) (hsplit : octets = used ++ tail)
      (hreads : Reads read offset used value)
  /-- The octets are malformed. -/
  | rejects (error : ε) (hfinal : needed? error = none)
      (hrejects : Rejects read offset octets error)
  /-- The input is too short. -/
  | waits (error : ε) (least : Nat) (hneeded : needed? error = some least)
      (hread : read ⟨offset, octets⟩ = .error error)
      (hfurther : offset + octets.length < least)
      (hwaits : Waits needed? read offset octets least)

variable {needed? : ε → Option Nat} {needed'? : ε' → Option Nat}
variable {offset : Nat} {octets : Bytes}

/-- A reader whose first step takes one octet off the input reads that octet
and what the other reader reads behind it. -/
theorem Reads.cons {read rest : Reader ε α} {octet : UInt8} {used : Bytes} {value : α}
    (hread : ∀ tail, read ⟨offset, octet :: tail⟩ = rest ⟨offset + 1, tail⟩)
    (hrest : Reads rest (offset + 1) used value) : Reads read offset (octet :: used) value := by
  intro tail
  rw [List.cons_append, hread, hrest, List.length_cons]
  simp only [Except.ok.injEq, Prod.mk.injEq, Cursor.mk.injEq, and_true, true_and]
  omega

/-- A reader of two steps reads what they read one behind the other. -/
theorem Reads.bind {first : Reader ε α} {second : α → Reader ε' β} {whole : Reader ε' β}
    {reword : ε → ε'} (hsteps : Steps first second reword whole) {used used' : Bytes} {found : α}
    {value : β} (hfirst : Reads first offset used found)
    (hsecond : Reads (second found) (offset + used.length) used' value) :
    Reads whole offset (used ++ used') value := by
  intro tail
  rw [List.append_assoc, hsteps.ok (hfirst _), hsecond, List.length_append, Nat.add_assoc]

/-- A second step that takes nothing off the input reads its value from what
the first step has read. -/
theorem Reads.finish {first : Reader ε α} {second : α → Reader ε' β} {whole : Reader ε' β}
    {reword : ε → ε'} (hsteps : Steps first second reword whole) {used : Bytes} {found : α}
    {value : β} (hfirst : Reads first offset used found)
    (hsecond : ∀ next, second found next = .ok (value, next)) : Reads whole offset used value := by
  intro tail
  rw [hsteps.ok (hfirst tail), hsecond]

/-- Octets behind those that are rejected do not matter. -/
theorem Rejects.append {read : Reader ε α} {error : ε} (hrejects : Rejects read offset octets error)
    (more : Bytes) : Rejects read offset (octets ++ more) error := by
  intro tail
  rw [List.append_assoc, hrejects]

/-- A reader whose first step takes one octet off the input rejects that octet
in front of what the other reader rejects. -/
theorem Rejects.cons {read rest : Reader ε α} {octet : UInt8} {error : ε}
    (hread : ∀ tail, read ⟨offset, octet :: tail⟩ = rest ⟨offset + 1, tail⟩)
    (hrest : Rejects rest (offset + 1) octets error) :
    Rejects read offset (octet :: octets) error := by
  intro more
  rw [List.cons_append, hread, hrest]

/-- A reader of two steps rejects what its first step rejects. -/
theorem Rejects.first {first : Reader ε α} {second : α → Reader ε' β} {whole : Reader ε' β}
    {reword : ε → ε'} (hsteps : Steps first second reword whole) {error : ε}
    (hfirst : Rejects first offset octets error) : Rejects whole offset octets (reword error) :=
  fun more => hsteps.error (hfirst more)

/-- A reader of two steps rejects what its second step rejects, behind what its
first step reads. -/
theorem Rejects.bind {first : Reader ε α} {second : α → Reader ε' β} {whole : Reader ε' β}
    {reword : ε → ε'} (hsteps : Steps first second reword whole) {used : Bytes} {found : α}
    {error : ε'} (hfirst : Reads first offset used found)
    (hsecond : Rejects (second found) (offset + used.length) octets error) :
    Rejects whole offset (used ++ octets) error := by
  intro more
  rw [List.append_assoc, hsteps.ok (hfirst _), hsecond]

/-- A reader that takes nothing off the input reads its value from no octets. -/
theorem Judged.pure {read : Reader ε α} (value : α)
    (hread : ∀ cursor, read cursor = .ok (value, cursor)) :
    Judged needed? read offset octets :=
  .reads [] octets value rfl fun tail => hread ⟨offset, tail⟩

/-- A reader that always fails with the same final error rejects its input. -/
theorem Judged.fail {read : Reader ε α} (error : ε) (hfinal : needed? error = none)
    (hread : ∀ cursor, read cursor = .error error) :
    Judged needed? read offset octets :=
  .rejects error hfinal fun _ => hread _

/-- A reader whose first step takes one octet off the input is judged as the
rest of it is. -/
theorem Judged.cons {read rest : Reader ε α} {octet : UInt8}
    (hread : ∀ tail, read ⟨offset, octet :: tail⟩ = rest ⟨offset + 1, tail⟩)
    (hrest : Judged needed? rest (offset + 1) octets) :
    Judged needed? read offset (octet :: octets) := by
  cases hrest with
  | reads used tail value hsplit hreads =>
      exact .reads (octet :: used) tail value (by simp [hsplit]) (hreads.cons hread)
  | rejects error hfinal hrejects => exact .rejects error hfinal (hrejects.cons hread)
  | waits error least hneeded hfailed hfurther hwaits =>
      refine .waits error least hneeded (by rw [hread, hfailed]) ?_ fun more hshort => ?_
      · simp only [List.length_cons]
        omega
      · rw [List.cons_append, hread]
        apply hwaits
        simp only [List.cons_append, List.length_cons] at hshort
        omega

/-- Judgements compose: a reader is judged if both its steps are, as long as
rewording an error does not change the input it asks for. -/
theorem Judged.bind {first : Reader ε α} {second : α → Reader ε' β} {whole : Reader ε' β}
    {reword : ε → ε'} (hsteps : Steps first second reword whole)
    (hneeded : ∀ error, needed'? (reword error) = needed? error)
    (hfirst : Judged needed? first offset octets)
    (hsecond : ∀ value offset octets, Judged needed'? (second value) offset octets) :
    Judged needed'? whole offset octets := by
  cases hfirst with
  | rejects error hfinal hrejects =>
      exact .rejects (reword error) (by rw [hneeded, hfinal]) (hrejects.first hsteps)
  | waits error least hleast hread hfurther hwaits =>
      refine .waits (reword error) least (by rw [hneeded, hleast]) (hsteps.error hread) hfurther
        fun more hshort => ?_
      rcases hwaits more hshort with ⟨error', hread', hmore⟩
      exact ⟨reword error', hsteps.error hread', by rw [hneeded]; exact hmore⟩
  | reads used tail value hsplit hreads =>
      -- What the first step leaves is judged by the second one.
      have hwhole : ∀ more, whole ⟨offset, used ++ more⟩ =
          second value ⟨offset + used.length, more⟩ :=
        fun more => hsteps.ok (hreads more)
      subst hsplit
      cases hsecond value (offset + used.length) tail with
      | reads used' tail' value' hsplit' hreads' =>
          exact .reads (used ++ used') tail' value' (by simp [hsplit'])
            (hreads.bind hsteps hreads')
      | rejects error hfinal hrejects =>
          exact .rejects error hfinal (hrejects.bind hsteps hreads)
      | waits error least hleast hread hfurther hwaits =>
          refine .waits error least hleast (by rw [hwhole, hread]) ?_ fun more hshort => ?_
          · simp only [List.length_append]
            omega
          · rw [List.append_assoc, hwhole]
            apply hwaits
            simp only [List.length_append] at hshort ⊢
            omega

/-- A value that a judged reader returns is read from the same octets whatever
follows them. -/
theorem Judged.of_ok {read : Reader ε α} {value : α} {next : Cursor}
    (hjudged : Judged needed? read offset octets)
    (hread : read ⟨offset, octets⟩ = .ok (value, next)) :
    ∃ used, octets = used ++ next.rest ∧ next.offset = offset + used.length ∧
      Reads read offset used value := by
  cases hjudged with
  | reads used tail value' hsplit hreads =>
      rw [hsplit, hreads tail] at hread
      cases hread
      exact ⟨used, hsplit, rfl, hreads⟩
  | rejects error hfinal hrejects =>
      have herror := hrejects []
      rw [List.append_nil, hread] at herror
      cases herror
  | waits error least hneeded herror hfurther hwaits =>
      rw [hread] at herror
      cases herror

end Judgements

/-! ## Lines and numerals -/

/-- The end of a line that holds no terminator is found at its end, unless the
line is longer than allowed. -/
theorem findLineEnd_line {line : Bytes} (hline : ¬ Bytes.crlf <:+: line) (room passed : Nat)
    (tail : Bytes) :
    findLineEnd room passed (line ++ Bytes.crlf ++ tail) =
      if line.length ≤ room then .at (passed + line.length) else .tooFar := by
  induction line generalizing room passed with
  | nil =>
      simp only [Bytes.crlf, List.nil_append, List.cons_append]
      unfold findLineEnd
      simp
  | cons first line ih =>
      have hrest : ¬ Bytes.crlf <:+: line :=
        fun hinside => hline (hinside.trans ⟨[first], [], by simp⟩)
      -- The first octet and the one behind it are no terminator.
      obtain ⟨second, others, hothers, hend⟩ : ∃ second others,
          line ++ Bytes.crlf ++ tail = second :: others ∧ ¬ (first = 0x0D ∧ second = 0x0A) := by
        cases line with
        | nil => exact ⟨0x0D, 0x0A :: tail, rfl, by rintro ⟨-, hfeed⟩; cases hfeed⟩
        | cons second line =>
            refine ⟨second, _, rfl, ?_⟩
            rintro ⟨rfl, rfl⟩
            exact hline ⟨[], line, rfl⟩
      rw [List.cons_append, List.cons_append, hothers]
      cases room with
      | zero =>
          rw [findLineEnd, if_neg hend]
          simp
      | succ room =>
          have hpassed : passed + 1 + line.length = passed + (line.length + 1) := by omega
          rw [findLineEnd, if_neg hend, ← hothers, ih hrest]
          simp only [List.length_cons, Nat.succ_le_succ_iff, hpassed]

/-- Where the end of a line is found, there is a terminator, none before it, and
the line is not longer than allowed. -/
theorem findLineEnd_at {room passed length : Nat} {octets : Bytes}
    (hfound : findLineEnd room passed octets = .at length) :
    ∃ line tail, octets = line ++ Bytes.crlf ++ tail ∧ length = passed + line.length ∧
      line.length ≤ room ∧ ¬ Bytes.crlf <:+: line := by
  fun_induction findLineEnd room passed octets with
  | case1 => contradiction
  | case2 => contradiction
  | case3 room passed first second rest hend =>
      rcases hend with ⟨rfl, rfl⟩
      cases hfound
      exact ⟨[], rest, rfl, rfl, Nat.zero_le room, by simp [Bytes.crlf]⟩
  | case4 => contradiction
  | case5 passed first second rest hend room ih =>
      rcases ih hfound with ⟨line, tail, hsplit, hlength, hroom, hline⟩
      refine ⟨first :: line, tail, by simp [hsplit], by simp [hlength]; omega,
        Nat.succ_le_succ hroom, ?_⟩
      rw [List.infix_cons_iff]
      rintro (⟨behind, hfront⟩ | hinside)
      · -- A terminator at the front would have been found before.
        apply hend
        cases line with
        | nil => simp [Bytes.crlf] at hfront
        | cons octet line =>
            simp only [Bytes.crlf, List.cons_append, List.nil_append, List.cons.injEq] at hfront
            simp only [List.cons_append, List.cons.injEq] at hsplit
            exact ⟨hfront.1.symm, hsplit.1.trans hfront.2.1.symm⟩
      · exact hline hinside

/-- A line that is too long stays so. -/
theorem findLineEnd_tooFar {room passed : Nat} {octets : Bytes}
    (hfound : findLineEnd room passed octets = .tooFar) (more : Bytes) :
    findLineEnd room passed (octets ++ more) = .tooFar := by
  fun_induction findLineEnd room passed octets with
  | case1 => contradiction
  | case2 => contradiction
  | case3 => contradiction
  | case4 passed first second rest hend => simp [findLineEnd, hend]
  | case5 passed first second rest hend room ih =>
      rw [List.cons_append, List.cons_append, findLineEnd, if_neg hend]
      exact ih hfound

/-- An undecided search has passed all octets. -/
theorem findLineEnd_unseen {room passed length : Nat} {octets : Bytes}
    (hfound : findLineEnd room passed octets = .unseen length) :
    length = passed + octets.length := by
  fun_induction findLineEnd room passed octets with
  | case1 => cases hfound; rfl
  | case2 => cases hfound; rfl
  | case3 => contradiction
  | case4 => contradiction
  | case5 passed first second rest hend room ih =>
      rw [ih hfound]
      simp only [List.length_cons]
      omega

/-- A line within the limit is read from itself and its terminator. -/
theorem readLine_reads {line : Bytes} (hline : ¬ Bytes.crlf <:+: line) {limit : Nat}
    (hlimit : line.length ≤ limit) {offset : Nat} :
    Reads (readLine limit) offset (line ++ Bytes.crlf) line := by
  intro tail
  have htwo : line.length + 2 = (line ++ Bytes.crlf).length := by simp [Bytes.crlf]
  simp only [readLine, findLineEnd_line hline, if_pos hlimit, Cursor.advance, Nat.zero_add]
  rw [htwo, List.drop_left, List.append_assoc, List.take_left]

/-- A line beyond the limit is refused. -/
theorem readLine_rejects {line : Bytes} (hline : ¬ Bytes.crlf <:+: line) {limit : Nat}
    (hlimit : limit < line.length) {offset : Nat} :
    Rejects (readLine limit) offset (line ++ Bytes.crlf) (.longLine offset limit) := by
  intro more
  simp only [readLine, findLineEnd_line hline, if_neg (Nat.not_le.mpr hlimit)]

/-- Every input of the line reader is judged. -/
theorem readLine_judged (limit offset : Nat) (octets : Bytes) :
    Judged Fault.needed? (readLine limit) offset octets := by
  cases hfound : findLineEnd limit 0 octets with
  | «at» length =>
      rcases findLineEnd_at hfound with ⟨line, tail, rfl, -, hlimit, hline⟩
      exact .reads (line ++ Bytes.crlf) tail line rfl (readLine_reads hline hlimit)
  | tooFar =>
      refine .rejects (.longLine offset limit) rfl fun more => ?_
      simp only [readLine, findLineEnd_tooFar hfound more]
  | unseen length =>
      have hlength := findLineEnd_unseen hfound
      refine .waits (.openLine offset (offset + length)) (offset + length + 1) rfl
        (by simp only [readLine, hfound]) (by omega) fun more hshort => ?_
      have hnone : more = [] := by
        apply List.eq_nil_of_length_eq_zero
        simp only [List.length_append] at hshort
        omega
      subst hnone
      exact ⟨.openLine offset (offset + length), by simp [readLine, hfound], rfl⟩

/-- Every input of the numeral reader is judged. -/
theorem readNumber_judged (field : NumberField) (offset : Nat) (octets : Bytes) :
    Judged Fault.needed? (readNumber field) offset octets := by
  refine .bind (readNumber_steps field) (fun error => by cases error <;> rfl)
    (readLine_judged Numeral.maxLength offset octets) fun line offset octets => ?_
  cases hnumber : Numeral.parse? line with
  | some number => exact .pure number fun cursor => by simp only [readDigits, hnumber]
  | none =>
      exact .fail (.badNumber field line) rfl
        fun cursor => by simp only [readDigits, hnumber]

/-! ## Values other than arrays -/

/-- Every input of the text reader is judged. -/
theorem readText_judged (limits : Limits) (make : Bytes → Value) (offset : Nat)
    (octets : Bytes) : Judged Fault.needed? (readText limits make) offset octets :=
  .bind (readText_steps limits make) (fun _ => rfl) (readLine_judged limits.line offset octets)
    fun line _ _ => .pure (make line) fun _ => rfl

/-- Every input of the integer reader is judged. -/
theorem readInteger_judged (offset : Nat) (octets : Bytes) :
    Judged Fault.needed? readInteger offset octets := by
  refine .bind readInteger_steps (fun _ => rfl) (readNumber_judged .integer offset octets)
    fun number offset octets => ?_
  by_cases hfits : Numeral.fits64 number
  · exact .pure (.integer number) fun cursor => if_pos hfits
  · exact .fail (.wideInteger number) rfl fun cursor => if_neg hfits

/-- The octets that begin with a payload of the given length and two more. -/
theorem drop_eq_cons_cons {length : Nat} {octets rest : Bytes} {first second : UInt8}
    (hdrop : octets.drop length = first :: second :: rest) :
    ∃ payload, payload.length = length ∧ octets = payload ++ first :: second :: rest := by
  refine ⟨octets.take length, ?_, ?_⟩
  · have hlength := congrArg List.length hdrop
    simp only [List.length_drop, List.length_cons] at hlength
    rw [List.length_take]
    omega
  · rw [← hdrop, List.take_append_drop]

/-- Every input of the payload reader is judged. -/
theorem readPayload_judged (length offset : Nat) (octets : Bytes) :
    Judged Fault.needed? (readPayload length) offset octets := by
  by_cases henough : length + 2 ≤ octets.length
  · obtain ⟨first, second, rest, hdrop⟩ :
        ∃ first second rest, octets.drop length = first :: second :: rest := by
      match hdrop : octets.drop length with
      | first :: second :: rest => exact ⟨first, second, rest, rfl⟩
      | [] | [_] =>
          have hlength := congrArg List.length hdrop
          simp only [List.length_drop, List.length_cons, List.length_nil] at hlength
          omega
    rcases drop_eq_cons_cons hdrop with ⟨payload, rfl, hsplit⟩
    have hmore : ∀ more, (payload ++ first :: second :: more).drop payload.length =
        first :: second :: more := fun more => List.drop_left
    by_cases hend : first = 0x0D ∧ second = 0x0A
    · rcases hend with ⟨rfl, rfl⟩
      refine .reads (payload ++ Bytes.crlf) rest (.bulk payload) (by simp [hsplit, Bytes.crlf])
        fun tail => ?_
      have htwo : payload.length + 2 = (payload ++ Bytes.crlf).length := by simp [Bytes.crlf]
      simp only [readPayload, Cursor.advance]
      rw [htwo, List.drop_left, List.append_assoc, List.take_left]
      simp [Bytes.crlf]
    · refine .rejects (.openBulk payload.length) rfl fun more => ?_
      rw [hsplit, List.append_assoc]
      simp only [readPayload, List.cons_append, hmore, if_neg hend]
  · have hshort : ∀ more, offset + (octets ++ more).length < offset + length + 2 →
        readPayload length ⟨offset, octets ++ more⟩ =
          .error (.shortBulk length (offset + length + 2)) := by
      intro more hmore
      match hdrop : (octets ++ more).drop length with
      | first :: second :: rest =>
          have hlength := congrArg List.length hdrop
          simp only [List.length_drop, List.length_cons] at hlength
          omega
      | [] | [_] => simp only [readPayload, hdrop]
    refine .waits (.shortBulk length (offset + length + 2)) (offset + length + 2) rfl
      (by simpa using hshort [] (by simp; omega)) (by omega) fun more hmore => ?_
    exact ⟨_, hshort more hmore, rfl⟩

/-- Every input of the bulk string reader is judged. -/
theorem readBulk_judged (limits : Limits) (offset : Nat) (octets : Bytes) :
    Judged Fault.needed? (readBulk limits) offset octets := by
  refine .bind (readBulk_steps limits) (fun _ => rfl) (readNumber_judged .bulkLength offset octets)
    fun length offset octets => ?_
  unfold readBody
  by_cases habsent : length = -1
  · exact .pure .absentBulk fun cursor => if_pos habsent
  · by_cases hbad : length < 0 ∨ (limits.bulk : Int) < length
    · exact .fail (.badLength .bulkLength length) rfl
        fun cursor => by rw [if_neg habsent, if_pos hbad]
    · simpa only [if_neg habsent, if_neg hbad] using readPayload_judged length.toNat offset octets

/-- Every input of the null reader is judged. -/
theorem readNull_judged (offset : Nat) (octets : Bytes) :
    Judged Fault.needed? readNull offset octets := by
  match octets with
  | first :: second :: rest =>
      by_cases hend : first = 0x0D ∧ second = 0x0A
      · rcases hend with ⟨rfl, rfl⟩
        exact .reads Bytes.crlf rest .null rfl fun tail => rfl
      · refine .rejects (.nullBody offset) rfl fun more => ?_
        simp only [readNull, List.cons_append, if_neg hend]
  | [] =>
      refine .waits (.openNull offset) (offset + 2) rfl rfl (by simp) fun more hshort => ?_
      match more with
      | [] | [_] => exact ⟨.openNull offset, rfl, rfl⟩
      | _ :: _ :: _ =>
          simp only [List.nil_append, List.length_cons] at hshort
          omega
  | [octet] =>
      refine .waits (.openNull offset) (offset + 2) rfl rfl (by simp) fun more hshort => ?_
      match more with
      | [] => exact ⟨.openNull offset, rfl, rfl⟩
      | _ :: _ =>
          simp only [List.nil_append, List.cons_append, List.length_cons] at hshort
          omega

/-- Every input of the reader of what follows a type tag is judged. -/
theorem readScalar_judged (limits : Limits) (tag : Tag) (offset : Nat) (octets : Bytes) :
    Judged Fault.needed? (readScalar limits tag) offset octets := by
  cases tag with
  | simple => exact readText_judged limits .simple offset octets
  | error => exact readText_judged limits .error offset octets
  | integer => exact readInteger_judged offset octets
  | bulk => exact readBulk_judged limits offset octets
  | null => exact readNull_judged offset octets
  | array => exact .fail (.tooDeep limits.depth) rfl fun cursor => rfl

/-! ## Arrays and values in general -/

section Arrays

variable {readItem : Reader DecodeError Value}

/-- Every input of the reader of items is judged if every input of the reader
of one item is. -/
theorem readItems_judged
    (hitem : ∀ offset octets, Judged DecodeError.needed? readItem offset octets)
    (count : Nat) (done : List Value) (offset : Nat) (octets : Bytes) :
    Judged DecodeError.needed? (readItems readItem count done) offset octets := by
  induction count generalizing done offset octets with
  | zero => exact .pure (.array done.reverse) fun cursor => rfl
  | succ count ih =>
      exact .bind (readItems_steps readItem count done) (fun _ => rfl) (hitem offset octets)
        fun item => ih (item :: done)

/-- Every input of the array reader is judged if every input of the reader of
one item is. -/
theorem readArray_judged (limits : Limits)
    (hitem : ∀ offset octets, Judged DecodeError.needed? readItem offset octets)
    (offset : Nat) (octets : Bytes) :
    Judged DecodeError.needed? (readArray limits readItem) offset octets := by
  refine .bind (readArray_steps limits readItem) (fun _ => rfl)
    (readNumber_judged .arrayLength offset octets) fun count offset octets => ?_
  unfold readCounted
  by_cases habsent : count = -1
  · exact .pure .absentArray fun cursor => if_pos habsent
  · by_cases hbad : count < 0 ∨ (limits.array : Int) < count
    · exact .fail (.here (.badLength .arrayLength count)) rfl
        fun cursor => by rw [if_neg habsent, if_pos hbad]
    · simpa only [if_neg habsent, if_neg hbad] using
        readItems_judged hitem count.toNat [] offset octets

end Arrays

/-- Every input of the value reader is judged. -/
theorem readValue_judged (limits : Limits) (room offset : Nat) (octets : Bytes) :
    Judged DecodeError.needed? (readValue limits room) offset octets := by
  -- The induction is on the levels of arrays for which there is room.
  induction room using Nat.strongRecOn generalizing offset octets with
  | ind room ih =>
      induction octets using readValue_cases limits room with
      | hnil =>
          refine .waits (.here (.noValue offset)) (offset + 1) rfl
            (readValue_nil limits room offset) (by simp) fun more hshort => ?_
          have hnone : more = [] := by
            apply List.eq_nil_of_length_eq_zero
            simp only [List.nil_append] at hshort
            omega
          subst hnone
          exact ⟨.here (.noValue offset), readValue_nil limits room offset, rfl⟩
      | hunknown octet octets hnone =>
          exact .rejects (.here (.unknownTag octet offset)) rfl
            fun more => readValue_unknown hnone limits room offset (octets ++ more)
      | hscalar octet octets tag htag hread =>
          exact .cons (hread offset) (.bind (readTagged_steps limits tag) (fun _ => rfl)
            (readScalar_judged limits tag (offset + 1) octets)
            fun value _ _ => .pure value fun _ => rfl)
      | harray octet octets inner hroom htag hread =>
          exact .cons (hread offset)
            (readArray_judged limits (ih inner (by omega)) (offset + 1) octets)

/-! ## Consequences -/

variable {limits : Limits} {room offset : Nat} {octets used : Bytes} {value : Value}
variable {next : Cursor}

/-- A value is written in at least one octet. -/
theorem Reads.ne_nil (hreads : Reads (readValue limits room) offset used value) : used ≠ [] := by
  rintro rfl
  have hempty := hreads []
  rw [List.append_nil, readValue_nil] at hempty
  cases hempty

/-- A value that has been read is read from the same octets whatever follows
them. -/
theorem readValue_reads (hread : readValue limits room ⟨offset, octets⟩ = .ok (value, next)) :
    ∃ used, octets = used ++ next.rest ∧ next.offset = offset + used.length ∧
      Reads (readValue limits room) offset used value :=
  (readValue_judged limits room offset octets).of_ok hread

/-- A final error is the same whatever follows the octets. -/
theorem readValue_rejects {error : DecodeError}
    (hread : readValue limits room ⟨offset, octets⟩ = .error error)
    (hfinal : error.needed? = none) : Rejects (readValue limits room) offset octets error := by
  cases readValue_judged limits room offset octets with
  | reads used tail value hsplit hreads =>
      rw [hsplit, hreads tail] at hread
      cases hread
  | rejects error' hfinal' hrejects =>
      have herror := hrejects []
      rw [List.append_nil, hread] at herror
      cases herror
      exact hrejects
  | waits error' least hneeded herror hfurther hwaits =>
      rw [hread] at herror
      cases herror
      rw [hfinal] at hneeded
      cases hneeded

/-- An error that asks for more input asks for more than there is, and any
input that is shorter than asked for is too short. -/
theorem readValue_waits {error : DecodeError} {least : Nat}
    (hread : readValue limits room ⟨offset, octets⟩ = .error error)
    (hneeded : error.needed? = some least) :
    offset + octets.length < least ∧
      Waits DecodeError.needed? (readValue limits room) offset octets least := by
  cases readValue_judged limits room offset octets with
  | reads used tail value hsplit hreads =>
      rw [hsplit, hreads tail] at hread
      cases hread
  | rejects error' hfinal' hrejects =>
      have herror := hrejects []
      rw [List.append_nil, hread] at herror
      cases herror
      rw [hfinal'] at hneeded
      cases hneeded
  | waits error' least' hneeded' herror hfurther hwaits =>
      rw [hread] at herror
      cases herror
      rw [hneeded] at hneeded'
      cases hneeded'
      exact ⟨hfurther, hwaits⟩

/-- A proper prefix of the octets of a value is too short. -/
theorem readValue_waits_of_prefix {more : Bytes}
    (hreads : Reads (readValue limits room) offset (octets ++ more) value) (hmore : more ≠ []) :
    ∃ error, readValue limits room ⟨offset, octets⟩ = .error error ∧ error.isShort = true := by
  have hwhole := hreads []
  rw [List.append_nil] at hwhole
  cases readValue_judged limits room offset octets with
  | reads used tail value' hsplit hreads' =>
      -- The value would end inside its own octets.
      rw [hsplit, List.append_assoc, hreads'] at hwhole
      simp only [Except.ok.injEq, Prod.mk.injEq, Cursor.mk.injEq,
        List.append_eq_nil_iff] at hwhole
      exact absurd hwhole.2.2.2 hmore
  | rejects error hfinal hrejects =>
      rw [hrejects more] at hwhole
      cases hwhole
  | waits error least hneeded herror hfurther hwaits =>
      exact ⟨error, herror, by simp [DecodeError.isShort, hneeded]⟩

end DurableStore
