import Inator.Verify.Downlink
import Inator.Verify.Turns

/-! # What is written arrives

A connection is a queue; that nothing stays in it for ever takes more. Each of the parties has to
get its turn: the tasks that write, the network, and the reader at the other end. -/

namespace Inator
open Machine Temporal Filter

namespace TcpWriters
variable {H : Framing.Header UInt8} {s : TcpWriters} {done : List Nat} {part : List (Nat × UInt8)}
  {consumed : List UInt8}

/-- Who has taken all that is on the wire has the messages of the tasks that are done. -/
theorem done_prefix (hatomic : Appenders.Atomic s.appenders done part)
    (hguarded : Appenders.Guarded s.appenders) (hlegible : s.AllLegible H)
    (hwire : s.wire.map Prod.snd <+: consumed) :
    done.map s.payloadOf <+: (Framing.parse H consumed).frames := by
  have hlt : ∀ i ∈ done, i < s.writers.length :=
    fun i hi => begun_lt hatomic hguarded i (List.mem_append_left _ hi)
  have hlimit : ∀ body ∈ done.map s.payloadOf, body.length ≤ H.limit := by
    intro body hbody
    obtain ⟨i, hi, rfl⟩ := List.mem_map.mp hbody
    rw [payloadOf_eq (List.getElem?_eq_getElem (hlt i hi))]
    exact (hlegible _ (List.getElem_mem (hlt i hi))).limit
  have hlog : s.wire = done.flatMap s.appenders.labelled ++ part := hatomic.log
  have hframes : (done.flatMap s.appenders.labelled).map Prod.snd = done.flatMap s.frameOf := by
    rw [List.map_flatMap]
    exact List.flatMap_congr fun i _ => s.labelled_appenders i
  obtain ⟨tail, rfl⟩ := hwire
  rw [hlog, List.map_append, hframes, List.append_assoc,
    (frames_of_calls hlegible hlt).parse_append hlimit]
  exact List.prefix_append _ _

end TcpWriters

/-! ## From the writers to whoever reads -/

section Course
variable {τ : Type} [UserMessages τ] [Ciborium τ] {sender : TcpSender} {runtime : Option Runtime}

namespace TakeTurns
open TcpWriters
variable {c : Course (writerMachine τ sender runtime) .new} {H : Framing.Header UInt8}
  {n m : Nat}

/-- The calls that have taken the lock before the time `n`. -/
def locked (c : Course (writerMachine τ sender runtime) .new) (n : Nat) : List Nat :=
  (c.before n).flatMap fun t => t.pre.locks t.post

theorem fails_before (h : TakeTurns c) (n : Nat) :
    ∀ t ∈ c.before n, ∀ i, t.input ≠ .fail i := by
  induction n with
  | zero => exact fun t ht => absurd ht List.not_mem_nil
  | succ n ih =>
    rw [Course.before_succ]
    refine List.forall_mem_append.mpr ⟨ih, fun t ht i hinput => ?_⟩
    obtain ⟨l, hlabel, rfl⟩ := Option.map_eq_some_iff.mp (Option.mem_toList.mp ht)
    refine h.fails n i ?_
    rw [Course.input, hlabel, Option.map_some]
    exact congrArg some hinput

/-- Where the writers are in their frames, and in which order they took the lock. -/
theorem begun (h : TakeTurns c) (n : Nat) : ∃ done part,
    Appenders.Atomic (c.state n).appenders done part ∧
      (c.state n).appenders.begun done = locked c n :=
  (begun_run (c.run n) (h.fails_before n)).1

/-- What is on the wire stays there. -/
theorem wire_mono (c : Course (writerMachine τ sender runtime) .new) (h : n ≤ m) :
    (c.state n).wire <+: (c.state m).wire := by
  induction m, h using Nat.le_induction with
  | base => exact List.prefix_rfl
  | succ m _ ih =>
    rcases c.step m with ⟨-, hsame⟩ | ⟨input, output, -, hstep⟩
    · rw [hsame]
      exact ih
    · exact ih.trans (wire_step hstep)

theorem locked_mono (c : Course (writerMachine τ sender runtime) .new) (h : n ≤ m) :
    locked c n <+: locked c m := by
  induction m, h using Nat.le_induction with
  | base => exact List.prefix_rfl
  | succ m _ ih =>
    rw [locked, locked, Course.before_succ, List.flatMap_append]
    exact ih.trans (List.prefix_append _ _)

/-- **What is written is delivered**, if the bytes that were written are taken sooner or later:
whoever takes them comes to have the messages of all calls that were made by now. -/
theorem delivers (h : TakeTurns c) (hlegible : ∀ n, (c.state n).AllLegible H)
    {consumed : Nat → List UInt8}
    (hbegins : ∀ n, consumed n <+: (c.state n).wire.map Prod.snd)
    (hreads : ∀ w, LeadsTo (fun n => w ≤ (c.state n).wire.length) fun n => w ≤ (consumed n).length)
    (n : Nat) : ∃ m, n ≤ m ∧ ∃ calls, calls <+: locked c m ∧
      (∀ i < (c.state n).writers.length, i ∈ calls) ∧
        (Framing.parse H (consumed m)).frames = calls.map (c.state m).payloadOf := by
  obtain ⟨k, hk, hreturned⟩ := h.all_return n
  obtain ⟨m, hm, hlength⟩ := hreads _ k le_rfl
  obtain ⟨done, part, hatomic, hbegun⟩ := h.begun k
  obtain ⟨done', part', hatomic', hbegun'⟩ := h.begun m
  have hwire : (c.state k).wire.map Prod.snd <+: consumed m := by
    refine List.prefix_of_prefix_length_le ((wire_mono c hm).map Prod.snd) (hbegins m) ?_
    rw [List.length_map]
    exact hlength
  have hdone := done_prefix hatomic (guarded c k) (hlegible k) hwire
  have hframes := (parse_consumed hatomic' (guarded c m) (hlegible m) (hbegins m)).2
  rw [hbegun'] at hframes
  refine ⟨m, hk.trans hm, (locked c m).take (Framing.parse H (consumed m)).frames.length,
    List.take_prefix _ _, fun i hi => ?_, ?_⟩
  · have hmem : i ∈ done := by
      obtain ⟨writer, hwriter, hphase⟩ := hreturned i hi
      exact (hatomic.done_iff i).mpr ⟨_, appenders_lookup hwriter, Writer.task_done.mpr hphase⟩
    have hlocked : done <+: locked c m := by
      have hbefore : done <+: locked c k := hbegun ▸ List.prefix_append _ _
      exact hbefore.trans (locked_mono c hm)
    have hle := hdone.length_le
    rw [List.length_map] at hle
    exact (List.prefix_take_iff.mpr ⟨hlocked, hle⟩).subset hmem
  · rw [List.map_take]
    exact List.prefix_iff_eq_take.mp hframes

end TakeTurns

end Course

/-! ## From a server to a client -/

namespace ClientReader
variable {H : Framing.Header UInt8} {reader after : ClientReader} {events : List ClientEvent}

/-- A reader that meets no size it refuses goes on as long as the stream is open. -/
theorem run_goesOn (h : reader.run = some (after, events))
    (hframing : frameHeader reader.bytes reader.order = H) (hfollows : reader.Follows H)
    (hwhole : (Framing.parse H after.consumed).ending ≠ .refused) (hopen : reader.closed = false) :
    after.phase ≠ .returned := by
  simp only [run] at h
  split at h
  · cases h
    rintro ⟨⟩
  · rename_i state hphase
    rw [Follows, hphase] at hfollows
    split at h
    · rename_i b rest hpending
      simp only [take, hframing, Option.some.injEq] at h
      split at h
      · cases h
        rintro ⟨⟩
      · rename_i hfed
        cases h
        -- the size that is refused is in the bytes that were taken
        refine absurd ?_ hwhole
        have hfeed := Framing.feedAll_snoc (H := H) .start reader.consumed b
        rw [hfollows, hfed, Framing.feedAll_parse] at hfeed
        exact Framing.Ending.state_eq_refused.mp (congrArg Prod.fst hfeed)
      · cases h
        rintro ⟨⟩
    · rw [hopen] at h
      cases h
  · cases h

/-- Each step of a reader takes it further: to its loop, or to the next byte. -/
theorem run_further (h : reader.run = some (after, events)) (hopen : reader.closed = false) :
    reader.phase = .locking ∧ after.phase ≠ .locking ∧ after.consumed = reader.consumed ∨
      after.phase ≠ .locking ∧ after.consumed.length = reader.consumed.length + 1 := by
  simp only [run] at h
  split at h
  · rename_i hphase
    cases h
    exact .inl ⟨hphase, by rintro ⟨⟩, rfl⟩
  · right
    split at h
    · simp only [take, Option.some.injEq] at h
      split at h
      all_goals
        cases h
        exact ⟨by rintro ⟨⟩, List.length_append⟩
    · rw [hopen] at h
      cases h
  · cases h

theorem isSome_run (hpending : reader.pending ≠ []) (hreturned : reader.phase ≠ .returned) :
    reader.run.isSome := by
  rw [run]
  cases hphase : reader.phase with
  | locking => rfl
  | returned => exact absurd hphase hreturned
  | reading state =>
    cases hqueue : reader.pending with
    | nil => exact absurd hqueue hpending
    | cons b rest => rfl

end ClientReader

section Downlink
variable {τ : Type} [UserMessages τ]

omit [UserMessages τ] in
theorem TcpDownlink.length_next (link : TcpDownlink) (count : Nat) :
    (link.next count).length = min count (link.writers.wire.length - link.arrived) := by
  rw [next, List.length_take, List.length_drop, List.length_map]

/-- What the writers do in a step of the link. -/
def TcpDownlink.writersLabel (t : DownlinkTransition τ) : Option (WriterInput τ × Unit) :=
  match t.input with
  | .writers input => some (input, ())
  | _ => none

variable [Ciborium τ] {sender : TcpSender} {runtime : Option Runtime} {bytes : BytesOptions}
  {order : OrderOptions}

theorem TcpDownlink.step_writers {link after : TcpDownlink} {input : DownlinkInput τ}
    {output : List ClientEvent} (h : step sender runtime link input = some (after, output)) :
    (∃ input', input = .writers input' ∧
        TcpWriters.step sender runtime link.writers input' = some (after.writers, ())) ∨
      (∀ input', input ≠ .writers input') ∧ after.writers = link.writers := by
  cases input with
  | writers input =>
    obtain ⟨⟨writers, _⟩, hstep, heq⟩ := Option.map_eq_some_iff.mp h
    cases heq
    exact .inl ⟨input, rfl, hstep⟩
  | arrive count | close | fail =>
    simp only [step] at h
    split at h
    · cases h
    · cases h
      exact .inr ⟨by rintro input' ⟨⟩, rfl⟩
  | reader =>
    obtain ⟨⟨reader, events⟩, -, heq⟩ := Option.map_eq_some_iff.mp h
    cases heq
    exact .inr ⟨by rintro input' ⟨⟩, rfl⟩

/-- A step of a link is one of its reader, or brings it some of the bytes on the wire, or none. -/
theorem TcpDownlink.step_reader {link after : TcpDownlink} {input : DownlinkInput τ}
    {output : List ClientEvent} (h : step sender runtime link input = some (after, output)) :
    (input = .reader ∧ link.reader.run = some (after.reader, output)) ∨
      input ≠ .reader ∧ output = [] ∧ after.reader.consumed = link.reader.consumed ∧
        after.reader.phase = link.reader.phase := by
  cases input with
  | writers input =>
    obtain ⟨_, -, heq⟩ := Option.map_eq_some_iff.mp h
    cases heq
    exact .inr ⟨by rintro ⟨⟩, rfl, rfl, rfl⟩
  | arrive count | close | fail =>
    simp only [step] at h
    split at h
    · cases h
    · cases h
      exact .inr ⟨by rintro ⟨⟩, rfl, rfl, rfl⟩
  | reader =>
    obtain ⟨⟨reader, events⟩, hrun, heq⟩ := Option.map_eq_some_iff.mp h
    cases heq
    exact .inl ⟨rfl, hrun⟩

/-- How many bytes have come after a step. -/
theorem TcpDownlink.step_arrived {link after : TcpDownlink} {input : DownlinkInput τ}
    {output : List ClientEvent} (h : step sender runtime link input = some (after, output)) :
    (∃ count, input = .arrive count ∧
        after.arrived = link.arrived + (link.next count).length) ∨
      (∀ count, input ≠ .arrive count) ∧ after.arrived = link.arrived := by
  cases input with
  | writers input =>
    obtain ⟨_, -, heq⟩ := Option.map_eq_some_iff.mp h
    cases heq
    exact .inr ⟨by rintro count ⟨⟩, rfl⟩
  | arrive count =>
    simp only [step] at h
    split at h
    · cases h
    · cases h
      exact .inl ⟨count, rfl, rfl⟩
  | close | fail =>
    simp only [step] at h
    split at h
    · cases h
    · cases h
      exact .inr ⟨by rintro count ⟨⟩, rfl⟩
  | reader =>
    obtain ⟨_, -, heq⟩ := Option.map_eq_some_iff.mp h
    cases heq
    exact .inr ⟨by rintro count ⟨⟩, rfl⟩

theorem TcpDownlink.new_writers (bytes : BytesOptions) (order : OrderOptions) :
    (new bytes order).writers = .new := rfl

/-- The writers of a link. -/
def TcpDownlink.writersCourse
    (e : Execution (downlinkMachine τ sender runtime) (.new bytes order)) :
    Course (writerMachine τ sender runtime) .new :=
  e.part (fun link => link.writers) writersLabel (new_writers bytes order)
    (by
      intro t hof hlabel
      rcases step_writers hof with ⟨input, hinput, -⟩ | ⟨-, hsame⟩
      · rw [writersLabel, hinput] at hlabel
        cases hlabel
      · exact hsame)
    (by
      intro t hof l hlabel
      rcases step_writers hof with ⟨input, hinput, hstep⟩ | ⟨hother, -⟩
      · rw [writersLabel, hinput] at hlabel
        cases hlabel
        exact hstep
      · rw [writersLabel] at hlabel
        split at hlabel
        · rename_i input hinput
          exact absurd hinput (hother input)
        · cases hlabel)

/-- The stream stays open, no write fails, each message is legible at the client, and each of the
parties gets its turn: the tasks that write, the network, and the reader of the client. -/
structure DownlinkServes (e : Execution (downlinkMachine τ sender runtime) (.new bytes order)) :
    Prop where
  sound : ∀ n, DownlinkTransition.Sound (frameHeader bytes order) (e.transition n)
  opened : ∀ n, (e.state n).reader.closed = false
  writers : ∀ i, StronglyFair (fun n => ((e.state n).writers.writerStep i).isSome)
    fun n => e.input n = .writers (.writer i)
  arrives : WeaklyFair (fun n => (e.state n).next 1 ≠ [])
    fun n => ∃ count, 0 < count ∧ e.input n = .arrive count
  reads : WeaklyFair (fun n => (e.state n).reader.run.isSome) fun n => e.input n = .reader

namespace DownlinkServes
open TcpDownlink
variable {e : Execution (downlinkMachine τ sender runtime) (.new bytes order)} {n m : Nat}

theorem sound_before (h : DownlinkServes e) (n : Nat) :
    ∀ t ∈ e.before n, DownlinkTransition.Sound (frameHeader bytes order) t := by
  intro t ht
  obtain ⟨m, -, rfl⟩ := Execution.mem_before ht
  exact h.sound m

theorem takeTurns (h : DownlinkServes e) : TakeTurns (writersCourse e) where
  fails n i hinput := by
    obtain ⟨l, hlabel, hl⟩ := Option.map_eq_some_iff.mp hinput
    change writersLabel (e.transition n) = some l at hlabel
    rw [writersLabel] at hlabel
    split at hlabel
    · rename_i input hinput'
      cases hlabel
      cases hl
      exact (h.sound n).fails i hinput'
    · cases hlabel
  fair i hcan := by
    refine (h.writers i hcan).mono fun n hinput => ?_
    change (writersLabel (e.transition n)).map Prod.fst = some (.writer i)
    rw [writersLabel]
    change (match e.input n with
      | .writers input => some (input, ())
      | _ => none).map Prod.fst = some (WriterInput.writer i)
    rw [hinput]
    rfl

theorem explained (h : DownlinkServes e) (n : Nat) :
    ∃ queue, (e.state n).Explained (frameHeader bytes order) queue := by
  obtain ⟨-, queue, -, -, hexplained⟩ :=
    (downlink_simulates (τ := τ) sender runtime bytes order).run
      (explained_start bytes order) (e.run n) (h.sound_before n)
  exact ⟨queue, hexplained⟩

theorem legible (h : DownlinkServes e) (n : Nat) :
    (e.state n).writers.AllLegible (frameHeader bytes order) := by
  cases n with
  | zero =>
    rw [e.start]
    exact fun writer hwriter => absurd hwriter List.not_mem_nil
  | succ n => exact (h.sound n).legible

/-- What the reader has taken can be cut. -/
theorem whole (h : DownlinkServes e) (n : Nat) :
    (Framing.parse (frameHeader bytes order) (e.state n).reader.consumed).ending ≠ .refused := by
  obtain ⟨queue, hexplained⟩ := h.explained n
  exact hexplained.onTheWay.whole hexplained.guarded (h.legible n)
    hexplained.carried.consumed_begins

/-- The reader never returns. -/
theorem goesOn (h : DownlinkServes e) (n : Nat) : (e.state n).reader.phase ≠ .returned := by
  induction n with
  | zero =>
    rw [e.start]
    rintro ⟨⟩
  | succ n ih =>
    rcases step_reader (e.step n) with ⟨-, hrun⟩ | ⟨-, -, -, hphase⟩
    · obtain ⟨queue, hexplained⟩ := h.explained n
      exact ClientReader.run_goesOn hrun hexplained.framing hexplained.follows (h.whole (n + 1))
        (h.opened n)
    · rw [hphase]
      exact ih

theorem wire_mono (h : n ≤ m) : (e.state n).writers.wire <+: (e.state m).writers.wire :=
  TakeTurns.wire_mono (writersCourse e) h

/-- **The network brings what was written.** -/
theorem brings (h : DownlinkServes e) (w : Nat) :
    LeadsTo (fun n => w ≤ (e.state n).writers.wire.length) fun n => w ≤ (e.state n).arrived := by
  have hwire : ∀ n, w ≤ (e.state n).writers.wire.length →
      w ≤ (e.state (n + 1)).writers.wire.length :=
    fun n hw => hw.trans (wire_mono (Nat.le_succ n)).length_le
  refine .descends (fun n => w - (e.state n).arrived) h.arrives (fun n hw hgoal => ?_)
    (fun n hw hgoal => ?_) fun n hw hgoal hinput => ?_
  · refine List.ne_nil_of_length_pos ?_
    rw [length_next]
    omega
  · rcases step_arrived (e.step n) with ⟨count, -, harrived⟩ | ⟨-, harrived⟩
    · exact .inr ⟨hwire n hw, by omega⟩
    · exact .inr ⟨hwire n hw, by omega⟩
  · obtain ⟨count, hcount, hinput⟩ := hinput
    rcases step_arrived (e.step n) with ⟨count', hinput', harrived⟩ | ⟨hother, -⟩
    · cases hinput.symm.trans hinput'
      rw [length_next] at harrived
      exact .inr ⟨hwire n hw, by omega⟩
    · exact absurd hinput (hother count)

/-- How far the reader is from having taken `w` bytes. -/
def readerLeft (w : Nat) (reader : ClientReader) : Nat :=
  2 * (w - reader.consumed.length) + if reader.phase = .locking then 1 else 0

/-- The reader gets on, by its own steps. -/
theorem reader_next (h : DownlinkServes e) {w : Nat}
    (hw : ¬w ≤ (e.state n).reader.consumed.length) :
    readerLeft w (e.state (n + 1)).reader ≤ readerLeft w (e.state n).reader ∧
      (e.input n = .reader →
        readerLeft w (e.state (n + 1)).reader < readerLeft w (e.state n).reader) := by
  unfold readerLeft
  rcases step_reader (e.step n) with ⟨-, hrun⟩ | ⟨hother, -, hconsumed, hphase⟩
  · rcases ClientReader.run_further hrun (h.opened n) with ⟨hphase, hphase', hconsumed⟩ |
      ⟨hphase', hconsumed⟩
    · rw [if_pos hphase, if_neg hphase', hconsumed]
      omega
    · rw [if_neg hphase']
      omega
  · rw [hconsumed, hphase]
    exact ⟨le_rfl, fun hinput => absurd hinput hother⟩

/-- **The reader takes what has come.** -/
theorem takes (h : DownlinkServes e) (w : Nat) :
    LeadsTo (fun n => w ≤ (e.state n).arrived) fun n => w ≤ (e.state n).reader.consumed.length := by
  have harrived : ∀ n, w ≤ (e.state n).arrived → w ≤ (e.state (n + 1)).arrived := by
    intro n hw
    rcases step_arrived (e.step n) with ⟨count, -, harrived⟩ | ⟨-, harrived⟩ <;> omega
  refine .descends (fun n => readerLeft w (e.state n).reader) h.reads (fun n hw hgoal => ?_)
    (fun n hw hgoal => ?_) fun n hw hgoal hinput => ?_
  · refine ClientReader.isSome_run ?_ (h.goesOn n)
    obtain ⟨queue, hexplained⟩ := h.explained n
    have hcame := congrArg List.length (hexplained.carried.whole (h.opened n))
    rw [List.length_append, List.length_take, Nat.min_eq_left hexplained.carried.bounded] at hcame
    refine List.ne_nil_of_length_pos ?_
    omega
  · exact .inr ⟨harrived n hw, (h.reader_next hgoal).1⟩
  · exact .inr ⟨harrived n hw, (h.reader_next hgoal).2 hinput⟩

/-- What the reader has sent are the messages in the bytes that it has taken. -/
theorem frames (h : DownlinkServes e) (n : Nat) :
    ((e.before n).flatMap fun t => ClientReader.received t.output) =
      (Framing.parse (frameHeader bytes order) (e.state n).reader.consumed).frames := by
  induction n with
  | zero =>
    rw [e.start]
    exact (congrArg Framing.Parsed.frames
      (Framing.parse_short (s := []) (frameHeader bytes order).width_pos)).symm
  | succ n ih =>
    rw [Execution.before_succ, List.flatMap_append, ih, List.flatMap_singleton]
    rcases step_reader (e.step n) with ⟨-, hrun⟩ | ⟨-, houtput, hconsumed, -⟩
    · obtain ⟨queue, hexplained⟩ := h.explained n
      exact (ClientReader.run_spec hrun hexplained.framing hexplained.follows
        (h.whole (n + 1))).2.symm
    · rw [hconsumed, show (e.transition n).output = [] from houtput]
      exact List.append_nil _

end DownlinkServes

/-- **A connection from a server to a client delivers.** As long as it stays open and each of the
parties gets its turn, the client comes to have the messages of all calls that were made by now,
each once, in the order in which the calls have taken the lock. -/
theorem downlink_delivers (e : Execution (downlinkMachine τ sender runtime) (.new bytes order))
    (h : DownlinkServes e) (n : Nat) : ∃ m, n ≤ m ∧ ∃ calls,
      calls <+: ((e.before m).flatMap fun t => t.pre.writers.locks t.post.writers) ∧
      calls.Nodup ∧ (∀ i < (e.state n).writers.writers.length, i ∈ calls) ∧
        ((e.before m).flatMap fun t => ClientReader.received t.output) =
          calls.map (e.state m).writers.payloadOf := by
  have hbegins : ∀ n, (e.state n).reader.consumed <+: (e.state n).writers.wire.map Prod.snd := by
    intro n
    obtain ⟨queue, hexplained⟩ := h.explained n
    exact hexplained.carried.consumed_begins
  have hturns := h.takeTurns
  obtain ⟨m, hm, calls, hcalls, hall, hframes⟩ := hturns.delivers h.legible hbegins
    (fun w => (h.brings w).trans (h.takes w)) n
  have hlocked : TakeTurns.locked (TcpDownlink.writersCourse e) m =
      (e.before m).flatMap fun t => t.pre.writers.locks t.post.writers := by
    rw [TakeTurns.locked, TcpDownlink.writersCourse, Execution.before_part]
    refine flatMap_part (fun t ht hlabel => ?_) fun _ _ _ _ => rfl
    obtain ⟨k, -, rfl⟩ := Execution.mem_before ht
    rcases TcpDownlink.step_writers (e.step k) with ⟨input, hinput, -⟩ | ⟨-, hsame⟩
    · rw [TcpDownlink.writersLabel, show (e.transition k).input = _ from hinput] at hlabel
      cases hlabel
    · rw [show (e.transition k).post.writers = _ from hsame]
      exact TcpWriters.locks_self _
  have hnodup : (TakeTurns.locked (TcpDownlink.writersCourse e) m).Nodup :=
    (locks_run ((TcpDownlink.writersCourse e).run m) (hturns.fails_before m)).1
  refine ⟨m, hm, calls, hlocked ▸ hcalls, hnodup.sublist hcalls.sublist, hall, ?_⟩
  rw [h.frames m]
  exact hframes

end Downlink

namespace Sample

/-- Two messages are sent and read. -/
def answeredInputs : List (DownlinkInput Sample) :=
  [.writers (.sendMessage (.user .ticket) (42 : UInt8)),
    .writers (.sendMessage (.user .ticket) (43 : UInt8))] ++
  List.replicate 9 (.writers (.writer 1)) ++ List.replicate 9 (.writers (.writer 0)) ++
  [.arrive 100] ++ List.replicate 13 .reader

def answeredRun : List (DownlinkTransition Sample) × TcpDownlink :=
  ((downlinkMachine Sample (.server listeningServer 7) (some .new)).exec
    (.new .u32 .littleEndian) answeredInputs).getD ([], .new .u32 .littleEndian)

theorem exec_answered : (downlinkMachine Sample (.server listeningServer 7) (some .new)).exec
    (.new .u32 .littleEndian) answeredInputs = some (answeredRun.1, answeredRun.2) := rfl

theorem rest_answered (k : ℕ) :
    ∃ o, (downlinkMachine Sample (.server listeningServer 7) (some .new)).step answeredRun.2
      ((fun _ => .arrive 1) k) = some (answeredRun.2, o) := ⟨[], rfl⟩

/-- Then nothing happens any more, and the network has nothing to bring. -/
def answered : Execution (downlinkMachine Sample (.server listeningServer 7) (some .new))
    (.new .u32 .littleEndian) :=
  .resting exec_answered rest_answered

theorem answered_serves : DownlinkServes answered := by
  have hall : answeredRun.1.all (fun t => (match t.input with
    | .writers (.fail _) => false
    | _ => true) && t.post.writers.writers.all short && !t.pre.reader.closed) = true := rfl
  have hlast : answeredRun.2.writers.writers.all short = true := rfl
  have hend : ∀ᶠ n in atTop, answered.state n = answeredRun.2 :=
    eventually_atTop.mpr ⟨_, fun n hn => Execution.resting_state exec_answered rest_answered hn⟩
  have hinput : ∀ᶠ n in atTop, answered.input n = .arrive 1 :=
    eventually_atTop.mpr ⟨_, fun n hn => Execution.resting_input exec_answered rest_answered hn⟩
  have hcases : ∀ n, answered.transition n ∈ answeredRun.1 ∨ answeredInputs.length ≤ n ∧
      (answered.transition n).pre = answeredRun.2 ∧ (answered.transition n).post = answeredRun.2 :=
    Execution.resting_transition exec_answered rest_answered
  refine ⟨fun n => ?_, fun n => ?_, fun i => .of_never ?_, fun _ => ?_,
    (StronglyFair.of_never ?_).weakly⟩
  · rcases hcases n with ht | ⟨hn, -, hpost⟩
    · have ht := List.all_eq_true.mp hall _ ht
      simp only [Bool.and_eq_true] at ht
      refine ⟨fun i hinput => ?_, fun writer hwriter => ?_⟩
      · have hfails := ht.1.1
        rw [hinput] at hfails
        cases hfails
      · exact legible_of_short (List.all_eq_true.mp ht.1.2 writer hwriter)
    · refine ⟨fun i hfails => ?_, fun writer hwriter => ?_⟩
      · cases (Execution.resting_input exec_answered rest_answered hn).symm.trans hfails
      · rw [hpost] at hwriter
        exact legible_of_short (List.all_eq_true.mp hlast writer hwriter)
  · change (answered.transition n).pre.reader.closed = false
    rcases hcases n with ht | ⟨-, hpre, -⟩
    · have ht := List.all_eq_true.mp hall _ ht
      simp only [Bool.and_eq_true, Bool.not_eq_true'] at ht
      exact ht.2
    · rw [hpre]
      rfl
  · refine hend.mono fun n hn => ?_
    rw [hn]
    rcases i with _ | _ | i <;> exact Bool.false_ne_true
  · exact (hinput.mono fun n hn => ⟨1, Nat.one_pos, hn⟩).frequently
  · refine hend.mono fun n hn => ?_
    rw [hn]
    decide

end Sample

theorem downlink_delivers_answered : ∃ m, 2 ≤ m ∧ ∃ calls,
    calls <+: ((Sample.answered.before m).flatMap fun t => t.pre.writers.locks t.post.writers) ∧
    calls.Nodup ∧ (∀ i < (Sample.answered.state 2).writers.writers.length, i ∈ calls) ∧
      ((Sample.answered.before m).flatMap fun t => ClientReader.received t.output) =
        calls.map (Sample.answered.state m).writers.payloadOf :=
  downlink_delivers Sample.answered Sample.answered_serves 2

end Inator
