import Inator.Verify.Framing
import Inator.Verify.Writers

/-! # A wire, from its writers to the bytes a reader has taken

The writers of one end put frames on the wire byte by byte, under their mutex, and the network
brings the bytes to the other end in pieces. As long as no write fails and each header states the
length of its payload, what a reader there can cut from the bytes it has taken are the first
messages, in the order in which their calls took the mutex (`TcpWriters.parse_consumed`). -/

namespace Inator

/-! ## The wire -/

/-- The reader takes from the header of the writer the length of the payload. -/
structure Writer.Legible (H : Framing.Header UInt8) (writer : Writer) : Prop where
  width : writer.header.length = H.width
  size : H.size writer.header = writer.buf.length
  limit : writer.buf.length ≤ H.limit

/-- A payload whose length fits the header type of both ends is legible. -/
theorem Writer.legible_of_fits {writer : Writer} {m : Nat} (hint : writer.bytes.intMax = some m)
    (hlength : writer.buf.length < 2 ^ 63) (hfits : FitsHeader m writer.buf.length) :
    writer.Legible (frameHeader writer.bytes writer.order) := by
  have hheader : writer.header = headerOf writer.bytes writer.order writer.buf.length := by
    rw [Writer.header, frameIo_eq]
    rfl
  refine ⟨?_, ?_, ?_⟩
  · rw [hheader]
    exact length_headerOf _
  · rw [hheader, size_eq hint hlength]
    exact hfits
  · change writer.buf.length ≤ 2 ^ 63 - 1
    omega

namespace TcpWriters
variable {H : Framing.Header UInt8} {s s' : TcpWriters} {done : List Nat}
  {part : List (Nat × UInt8)} {calls : List Nat} {consumed : List UInt8}

/-- The payload of call `i`. -/
def payloadOf (s : TcpWriters) (i : Nat) : List UInt8 := ((s.writers[i]?).map Writer.buf).getD []

theorem payloadOf_eq {writer : Writer} {i : Nat} (h : s.writers[i]? = some writer) :
    s.payloadOf i = writer.buf := by
  rw [payloadOf, h]
  rfl

theorem frameOf_eq {writer : Writer} {i : Nat} (h : s.writers[i]? = some writer) :
    s.frameOf i = writer.header ++ writer.buf := by
  rw [frameOf, h]
  rfl

/-- Each message of the stream is legible at its other end. -/
def AllLegible (H : Framing.Header UInt8) (s : TcpWriters) : Prop :=
  ∀ writer ∈ s.writers, writer.Legible H

theorem frames_of_calls (hlegible : s.AllLegible H)
    (hcalls : ∀ i ∈ calls, i < s.writers.length) :
    Framing.Frames H (calls.map s.payloadOf) (calls.flatMap s.frameOf) := by
  induction calls with
  | nil => exact .nil
  | cons i calls ih =>
    obtain ⟨hi, hcalls⟩ := List.forall_mem_cons.mp hcalls
    have hwriter := List.getElem?_eq_getElem hi
    have hhead := hlegible _ (List.getElem_mem hi)
    rw [List.map_cons, List.flatMap_cons, payloadOf_eq hwriter, frameOf_eq hwriter,
      List.append_assoc]
    exact .cons hhead.width hhead.size (ih hcalls)

theorem begun_lt (hatomic : Appenders.Atomic s.appenders done part)
    (hguarded : Appenders.Guarded s.appenders) :
    ∀ i ∈ s.appenders.begun done, i < s.writers.length := by
  have hlt : ∀ {i : Nat} {task : Appenders.Task UInt8}, s.appenders.tasks[i]? = some task →
      i < s.writers.length := by
    intro i task hlookup
    have hi := (List.getElem?_eq_some_iff.mp hlookup).1
    rwa [appenders, List.length_map] at hi
  intro i hi
  rcases List.mem_append.mp hi with hdone | hholder
  · obtain ⟨task, hlookup, -⟩ := (hatomic.done_iff i).mp hdone
    exact hlt hlookup
  · obtain ⟨task, rest, hlookup, -⟩ := hguarded.held i (Option.mem_toList.mp hholder)
    exact hlt hlookup

/-- The wire is a beginning of the frames of the calls that have taken the lock. -/
theorem wire_prefix_begun (hatomic : Appenders.Atomic s.appenders done part)
    (hguarded : Appenders.Guarded s.appenders) :
    s.wire.map Prod.snd <+: (s.appenders.begun done).flatMap s.frameOf := by
  have hwire : s.wire = done.flatMap s.appenders.labelled ++ part := hatomic.log
  have hdone : (done.flatMap s.appenders.labelled).map Prod.snd = done.flatMap s.frameOf := by
    rw [List.map_flatMap]
    exact List.flatMap_congr fun i _ => s.labelled_appenders i
  rw [hwire, List.map_append, hdone, Appenders.State.begun, List.flatMap_append]
  cases hholder : s.appenders.holder with
  | none =>
    rw [hatomic.free hholder]
    exact List.prefix_rfl
  | some i =>
    obtain ⟨task, rest, hlookup, hphase⟩ := hguarded.held i hholder
    obtain ⟨written, hframe, rfl⟩ := hatomic.current i task rest hlookup hphase
    rw [List.prefix_append_right_inj, Option.toList_some, List.flatMap_singleton,
      ← s.labelled_appenders, Appenders.labelled_of_lookup hlookup, hframe, List.map_append,
      List.map_append]
    exact List.prefix_append _ _

/-- A call that is done and one that has the lock are different calls. -/
theorem nodup_begun (hatomic : Appenders.Atomic s.appenders done part)
    (hguarded : Appenders.Guarded s.appenders) : (s.appenders.begun done).Nodup := by
  refine List.nodup_append.mpr ⟨hatomic.once, ?_, ?_⟩
  · cases s.appenders.holder with
    | none => exact List.nodup_nil
    | some i => exact List.nodup_singleton i
  · rintro i hdone _ hholder rfl
    obtain ⟨task, hlookup, hphase⟩ := (hatomic.done_iff i).mp hdone
    obtain ⟨task', rest, hlookup', hphase'⟩ := hguarded.held i (Option.mem_toList.mp hholder)
    cases hlookup.symm.trans hlookup'
    cases hphase.symm.trans hphase'

/-- The calls that have taken the lock are those that do not wait for it. -/
theorem mem_begun (hatomic : Appenders.Atomic s.appenders done part)
    (hguarded : Appenders.Guarded s.appenders) {i : Nat} :
    i ∈ s.appenders.begun done ↔
      ∃ writer, s.writers[i]? = some writer ∧ writer.phase ≠ .locking := by
  have hlookup : ∀ {task : Appenders.Task UInt8}, s.appenders.tasks[i]? = some task →
      ∃ writer, s.writers[i]? = some writer ∧ writer.task = task := by
    intro task htask
    rw [appenders, List.getElem?_map] at htask
    exact Option.map_eq_some_iff.mp htask
  rw [Appenders.State.begun, List.mem_append, hatomic.done_iff, Option.mem_toList]
  constructor
  · rintro (⟨task, htask, hphase⟩ | hholder)
    · obtain ⟨writer, hwriter, rfl⟩ := hlookup htask
      refine ⟨writer, hwriter, ?_⟩
      rw [Writer.task_done.mp hphase]
      intro hlocking
      cases hlocking
    · obtain ⟨task, rest, htask, hphase⟩ := hguarded.held i hholder
      obtain ⟨writer, hwriter, rfl⟩ := hlookup htask
      refine ⟨writer, hwriter, fun hlocking => ?_⟩
      rw [Writer.task, hlocking] at hphase
      cases hphase
  · rintro ⟨writer, hwriter, hphase⟩
    have htask := appenders_lookup hwriter
    cases hcase : writer.phase with
    | locking => exact absurd hcase hphase
    | returned => exact .inl ⟨_, htask, Writer.task_done.mpr hcase⟩
    | header rest =>
      refine .inr (hguarded.exclusive i _ (rest ++ writer.buf) htask ?_)
      rw [Writer.task, hcase]
    | payload rest =>
      refine .inr (hguarded.exclusive i _ rest htask ?_)
      rw [Writer.task, hcase]

/-- What a reader cuts from the bytes it has taken are the first payloads. -/
theorem parse_consumed (hatomic : Appenders.Atomic s.appenders done part)
    (hguarded : Appenders.Guarded s.appenders) (hlegible : s.AllLegible H)
    (hconsumed : consumed <+: s.wire.map Prod.snd) :
    (Framing.parse H consumed).ending ≠ .refused ∧
      (Framing.parse H consumed).frames <+: (s.appenders.begun done).map s.payloadOf := by
  have hlt := begun_lt hatomic hguarded
  obtain ⟨tail, htail⟩ := hconsumed.trans (wire_prefix_begun hatomic hguarded)
  have hframes := frames_of_calls hlegible hlt
  have hlimit : ∀ body ∈ (s.appenders.begun done).map s.payloadOf, body.length ≤ H.limit := by
    intro body hbody
    obtain ⟨i, hi, rfl⟩ := List.mem_map.mp hbody
    have hwriter := List.getElem?_eq_getElem (hlt i hi)
    rw [payloadOf_eq hwriter]
    exact (hlegible _ (List.getElem_mem (hlt i hi))).limit
  have hparse := hframes.parse_append hlimit []
  rw [Framing.parse_short (s := []) H.width_pos, List.append_nil, List.append_nil,
    ← htail] at hparse
  constructor
  · refine Framing.not_refused_of_append (t := tail) ?_
    rw [hparse]
    exact nofun
  · have hbegins := Framing.parse_prefix (H := H) consumed tail
    rwa [hparse] at hbegins

/-- The call that takes the lock between two states, if one does. -/
def locks (s s' : TcpWriters) : List Nat := Appenders.taken s.appenders s'.appenders

section Step
variable {τ : Type} [UserMessages τ] [Ciborium τ] {sender : TcpSender} {runtime : Option Runtime}
  {input : WriterInput τ} {output : Unit}

theorem lookup_move {writer writer' : Writer} {phase : WriterPhase} {i j : Nat}
    (hlookup : s.writers[i]? = some writer) (h : s.writers[j]? = some writer') :
    ∃ phase', (s.move i writer phase)[j]? = some { writer' with phase := phase' } := by
  rw [move, List.getElem?_set]
  by_cases hj : i = j
  · subst hj
    cases hlookup.symm.trans h
    rw [if_pos rfl, if_pos (List.getElem?_eq_some_iff.mp hlookup).1]
    exact ⟨phase, rfl⟩
  · rw [if_neg hj, h]
    exact ⟨writer'.phase, rfl⟩

/-- A call stays what it is, but for its phase. -/
theorem lookup_step (h : step sender runtime s input = some (s', output)) {writer : Writer}
    {i : Nat} (hwriter : s.writers[i]? = some writer) :
    ∃ phase, s'.writers[i]? = some { writer with phase := phase } := by
  have hspawned : ∀ writers, (s.writers ++ writers)[i]? = some { writer with
      phase := writer.phase } := by
    intro writers
    rw [List.getElem?_append_left (List.getElem?_eq_some_iff.mp hwriter).1]
    exact hwriter
  cases input with
  | sendMessage t message =>
    cases h
    exact ⟨_, hspawned _⟩
  | write buf =>
    cases h
    exact ⟨_, hspawned _⟩
  | writer j =>
    obtain ⟨after, hstep, heq⟩ := Option.map_eq_some_iff.mp h
    cases heq
    simp only [writerStep] at hstep
    split at hstep
    · cases hstep
    · rename_i hlookup
      split at hstep
      · split at hstep
        · cases hstep
        · cases hstep
          exact lookup_move hlookup hwriter
      all_goals
        cases hstep
        try exact lookup_move hlookup hwriter
  | fail j =>
    obtain ⟨after, hstep, heq⟩ := Option.map_eq_some_iff.mp h
    cases heq
    simp only [failStep] at hstep
    split at hstep
    · cases hstep
    · rename_i hlookup
      split at hstep
      all_goals
        cases hstep
        try exact lookup_move hlookup hwriter

theorem payloadOf_step (h : step sender runtime s input = some (s', output)) {i : Nat}
    (hi : i < s.writers.length) : s'.payloadOf i = s.payloadOf i := by
  have hwriter := List.getElem?_eq_getElem hi
  obtain ⟨phase, hwriter'⟩ := lookup_step h hwriter
  rw [payloadOf_eq hwriter, payloadOf_eq hwriter']

/-- A step of the writers leaves what is on the wire there. -/
theorem wire_step (h : step sender runtime s input = some (s', output)) :
    s.wire <+: s'.wire := by
  cases input with
  | sendMessage t message =>
    cases h
    exact List.prefix_rfl
  | write buf =>
    cases h
    exact List.prefix_rfl
  | writer j =>
    obtain ⟨after, hstep, heq⟩ := Option.map_eq_some_iff.mp h
    cases heq
    simp only [writerStep] at hstep
    split at hstep
    · cases hstep
    · split at hstep
      · split at hstep
        · cases hstep
        · cases hstep
          exact List.prefix_rfl
      all_goals
        cases hstep
        try first
          | exact List.prefix_rfl
          | exact List.prefix_append _ _
  | fail j =>
    obtain ⟨after, hstep, heq⟩ := Option.map_eq_some_iff.mp h
    cases heq
    simp only [failStep] at hstep
    split at hstep
    · cases hstep
    · split at hstep
      all_goals
        cases hstep
        try exact List.prefix_rfl

/-- **A step of the writers** keeps the order in which the calls took the lock. -/
theorem begun_step (h : step sender runtime s input = some (s', output))
    (hfail : ∀ i, input ≠ .fail i) (hatomic : Appenders.Atomic s.appenders done part)
    (hguarded : Appenders.Guarded s.appenders) :
    ∃ done' part', Appenders.Atomic s'.appenders done' part' ∧
      s'.appenders.begun done' = s.appenders.begun done ++ s.locks s' := by
  cases step_appends h with
  | step step => exact hatomic.step_begun hguarded step
  | stutter same =>
    refine ⟨done, part, same ▸ hatomic, ?_⟩
    rw [locks, same, Appenders.taken]
    split
    · rename_i hfree
      rw [hfree, Option.toList_none, List.append_nil]
    · rw [List.append_nil]
  | failed asked => exact absurd asked (hfail _)

end Step

/-! ## What is on the way -/

/-- Of the messages whose calls have taken the lock, those after the ones that were cut from the
bytes `consumed`. -/
def OnTheWay (H : Framing.Header UInt8) (s : TcpWriters) (consumed : List UInt8)
    (queue : List (List UInt8)) : Prop :=
  ∃ done part, Appenders.Atomic s.appenders done part ∧
    (s.appenders.begun done).map s.payloadOf = (Framing.parse H consumed).frames ++ queue

namespace OnTheWay
variable {queue : List (List UInt8)}

theorem start (H : Framing.Header UInt8) : OnTheWay H .new [] [] := by
  refine ⟨[], [], .start, ?_⟩
  rw [Framing.parse_short (s := []) H.width_pos]
  rfl

/-- A call is on the way once it has taken the lock. -/
theorem written {τ : Type} [UserMessages τ] [Ciborium τ] {sender : TcpSender}
    {runtime : Option Runtime} {input : WriterInput τ} {output : Unit}
    (h : OnTheWay H s consumed queue) (hguarded : Appenders.Guarded s.appenders)
    (hstep : step sender runtime s input = some (s', output)) (hfail : ∀ i, input ≠ .fail i) :
    OnTheWay H s' consumed (queue ++ (s.locks s').map s'.payloadOf) := by
  obtain ⟨done, part, hatomic, hqueue⟩ := h
  obtain ⟨done', part', hatomic', hbegun⟩ := begun_step hstep hfail hatomic hguarded
  refine ⟨done', part', hatomic', ?_⟩
  have hkept : (s.appenders.begun done).map s'.payloadOf =
      (s.appenders.begun done).map s.payloadOf :=
    List.map_congr_left fun i hi => payloadOf_step hstep (begun_lt hatomic hguarded i hi)
  rw [hbegun, List.map_append, hkept, hqueue, List.append_assoc]

/-- It is on the way until its bytes were taken. -/
theorem read (h : OnTheWay H s consumed queue) (hguarded : Appenders.Guarded s.appenders)
    (hlegible : s.AllLegible H) {consumed' : List UInt8} {got : List (List UInt8)}
    (hwire : consumed' <+: s.wire.map Prod.snd)
    (hgot : (Framing.parse H consumed').frames = (Framing.parse H consumed).frames ++ got) :
    ∃ queue', queue = got ++ queue' ∧ OnTheWay H s consumed' queue' := by
  obtain ⟨done, part, hatomic, hqueue⟩ := h
  obtain ⟨queue', hqueue'⟩ := (parse_consumed hatomic hguarded hlegible hwire).2
  have hboth : (Framing.parse H consumed).frames ++ (got ++ queue') =
      (Framing.parse H consumed).frames ++ queue := by
    rw [← List.append_assoc, ← hgot, hqueue', hqueue]
  refine ⟨queue', (List.append_cancel_left hboth).symm, done, part, hatomic, hqueue'.symm⟩

/-- The bytes that were taken can be cut. -/
theorem whole (h : OnTheWay H s consumed queue) (hguarded : Appenders.Guarded s.appenders)
    (hlegible : s.AllLegible H) {consumed' : List UInt8}
    (hwire : consumed' <+: s.wire.map Prod.snd) :
    (Framing.parse H consumed').ending ≠ .refused := by
  obtain ⟨done, part, hatomic, -⟩ := h
  exact (parse_consumed hatomic hguarded hlegible hwire).1

/-- Nothing is on the way when nobody writes and all that was written was taken. -/
theorem complete (h : OnTheWay H s consumed queue) (hlegible : s.AllLegible H)
    (hguarded : Appenders.Guarded s.appenders) (hholder : s.holder = none)
    (hconsumed : consumed = s.wire.map Prod.snd) : queue = [] := by
  obtain ⟨done, part, hatomic, hqueue⟩ := h
  have hlt := begun_lt hatomic hguarded
  have hwire : s.wire.map Prod.snd = (s.appenders.begun done).flatMap s.frameOf := by
    have hlog : s.wire = done.flatMap s.appenders.labelled ++ part := hatomic.log
    have hbegun : s.appenders.begun done = done := by
      rw [Appenders.State.begun, show s.appenders.holder = none from hholder, Option.toList_none,
        List.append_nil]
    rw [hlog, hatomic.free hholder, List.append_nil, List.map_flatMap, hbegun]
    exact List.flatMap_congr fun i _ => s.labelled_appenders i
  have hlimit : ∀ body ∈ (s.appenders.begun done).map s.payloadOf, body.length ≤ H.limit := by
    intro body hbody
    obtain ⟨i, hi, rfl⟩ := List.mem_map.mp hbody
    rw [payloadOf_eq (List.getElem?_eq_getElem (hlt i hi))]
    exact (hlegible _ (List.getElem_mem (hlt i hi))).limit
  have hparse := (frames_of_calls hlegible hlt).parse_append hlimit []
  rw [Framing.parse_short (s := []) H.width_pos, List.append_nil, List.append_nil, ← hwire,
    ← hconsumed] at hparse
  rw [hparse] at hqueue
  exact List.self_eq_append_right.mp hqueue

end OnTheWay

theorem locks_self (s : TcpWriters) : s.locks s = [] := by
  rw [locks, Appenders.taken]
  split
  · rename_i hfree
    rw [hfree, Option.toList_none]
  · rfl

end TcpWriters

section Runs
variable {τ : Type} [UserMessages τ] [Ciborium τ] {sender : TcpSender} {runtime : Option Runtime}
  {ts : List (WriterTransition τ)} {s : TcpWriters}

/-- **The order of the locks** over a run of the writers, and the payloads of the calls in it. -/
theorem begun_run (h : (writerMachine τ sender runtime).Run .new ts s)
    (hfails : ∀ t ∈ ts, ∀ i, t.input ≠ .fail i) :
    (∃ done part, Appenders.Atomic s.appenders done part ∧
        s.appenders.begun done = ts.flatMap fun t => t.pre.locks t.post) ∧
      (ts.flatMap fun t => (t.pre.locks t.post).map t.post.payloadOf) =
        (ts.flatMap fun t => t.pre.locks t.post).map s.payloadOf := by
  refine h.history (fun ts s => (∀ t ∈ ts, ∀ i, t.input ≠ .fail i) →
    (∃ done part, Appenders.Atomic s.appenders done part ∧
        s.appenders.begun done = ts.flatMap fun t => t.pre.locks t.post) ∧
      (ts.flatMap fun t => (t.pre.locks t.post).map t.post.payloadOf) =
        (ts.flatMap fun t => t.pre.locks t.post).map s.payloadOf)
    (fun _ => ⟨⟨[], [], .start, rfl⟩, rfl⟩) ?_ hfails
  intro ts t hrun ih hof hfails
  obtain ⟨hbefore, hlast⟩ := List.forall_mem_append.mp hfails
  obtain ⟨⟨done, part, hatomic, hbegun⟩, hpayloads⟩ := ih hbefore
  have hguarded := guarded_run hrun
  have hkept : ∀ i ∈ t.pre.appenders.begun done, t.post.payloadOf i = t.pre.payloadOf i :=
    fun i hi => TcpWriters.payloadOf_step hof (TcpWriters.begun_lt hatomic hguarded i hi)
  rw [hbegun] at hkept
  obtain ⟨done', part', hatomic', hbegun'⟩ :=
    TcpWriters.begun_step hof (List.forall_mem_singleton.mp hlast) hatomic hguarded
  simp only [List.flatMap_append, List.flatMap_singleton, List.map_append]
  refine ⟨⟨done', part', hatomic', by rw [hbegun', hbegun]⟩, ?_⟩
  rw [hpayloads, List.map_congr_left hkept]

/-- The calls that have taken the lock, each once. -/
theorem locks_run (h : (writerMachine τ sender runtime).Run .new ts s)
    (hfails : ∀ t ∈ ts, ∀ i, t.input ≠ .fail i) :
    (ts.flatMap fun t => t.pre.locks t.post).Nodup ∧
      ∀ i, i ∈ (ts.flatMap fun t => t.pre.locks t.post) ↔
        ∃ writer, s.writers[i]? = some writer ∧ writer.phase ≠ .locking := by
  obtain ⟨⟨done, part, hatomic, hbegun⟩, -⟩ := begun_run h hfails
  have hguarded := guarded_run h
  rw [← hbegun]
  exact ⟨TcpWriters.nodup_begun hatomic hguarded, fun i => TcpWriters.mem_begun hatomic hguarded⟩

end Runs

/-! ## The bytes that come -/

/-- Of the bytes on a wire, `arrived` have come to the other end, and nothing else has. What was
not taken yet is lost when the stream fails. -/
structure Carried (wire consumed pending : List UInt8) (closed : Bool) (arrived : Nat) : Prop where
  bounded : arrived ≤ wire.length
  came : consumed ++ pending <+: wire
  whole : closed = false → consumed ++ pending = wire.take arrived

namespace Carried
variable {wire consumed pending : List UInt8} {closed : Bool} {arrived : Nat}

theorem start (wire : List UInt8) : Carried wire [] [] false 0 :=
  ⟨Nat.zero_le _, List.nil_prefix, fun _ => rfl⟩

theorem consumed_begins (h : Carried wire consumed pending closed arrived) : consumed <+: wire :=
  (List.prefix_append _ _).trans h.came

theorem grow (h : Carried wire consumed pending closed arrived) {wire' : List UInt8}
    (hwire : wire <+: wire') : Carried wire' consumed pending closed arrived := by
  obtain ⟨tail, rfl⟩ := hwire
  refine ⟨?_, h.came.trans (List.prefix_append _ _), fun hopen => ?_⟩
  · rw [List.length_append]
    exact Nat.le_add_right_of_le h.bounded
  · rw [h.whole hopen, List.take_append_of_le_length h.bounded]

theorem arrive (h : Carried wire consumed pending false arrived) (count : Nat) :
    Carried wire consumed (pending ++ (wire.drop arrived).take count) false
      (arrived + ((wire.drop arrived).take count).length) := by
  have hlength : ((wire.drop arrived).take count).length ≤ wire.length - arrived := by
    rw [List.length_take, List.length_drop]
    exact Nat.min_le_right _ _
  have hbounded := h.bounded
  have htake : consumed ++ (pending ++ (wire.drop arrived).take count) =
      wire.take (arrived + ((wire.drop arrived).take count).length) := by
    rw [← List.append_assoc, h.whole rfl, List.take_add, List.length_take, List.length_drop]
    congr 1
    rcases Nat.le_total count (wire.length - arrived) with hle | hle
    · rw [Nat.min_eq_left hle]
    · rw [Nat.min_eq_right hle, List.take_of_length_le (by rw [List.length_drop]; exact hle),
        List.take_of_length_le (by rw [List.length_drop])]
  exact ⟨by omega, htake ▸ List.take_prefix _ _, fun _ => htake⟩

/-- Some of what has come is taken. -/
theorem taken (h : Carried wire consumed pending closed arrived) {consumed' pending' : List UInt8}
    (hsame : consumed' ++ pending' = consumed ++ pending) :
    Carried wire consumed' pending' closed arrived :=
  ⟨h.bounded, hsame ▸ h.came, fun hopen => hsame.trans (h.whole hopen)⟩

theorem close (h : Carried wire consumed pending closed arrived) :
    Carried wire consumed pending true arrived :=
  ⟨h.bounded, h.came, nofun⟩

theorem fail (h : Carried wire consumed pending closed arrived) :
    Carried wire consumed [] true arrived := by
  refine ⟨h.bounded, ?_, nofun⟩
  rw [List.append_nil]
  exact h.consumed_begins

/-- All that was put on the wire has come and was taken. -/
theorem complete (h : Carried wire consumed pending false arrived) (hpending : pending = [])
    (harrived : arrived = wire.length) : consumed = wire := by
  have hwhole := h.whole rfl
  rwa [hpending, List.append_nil, harrived, List.take_length] at hwhole

end Carried

namespace Sample

/-- The writer frames a short payload as the default settings say. -/
def short (writer : Writer) : Bool :=
  writer.bytes = .u32 && writer.order = .littleEndian && writer.buf.length ≤ 2

theorem legible_of_short {writer : Writer} (h : short writer = true) :
    writer.Legible (frameHeader .u32 .littleEndian) := by
  simp only [short, Bool.and_eq_true, decide_eq_true_eq] at h
  obtain ⟨⟨hbytes, horder⟩, hlength⟩ := h
  rw [← hbytes, ← horder]
  refine Writer.legible_of_fits (m := 2 ^ 32 - 1) ?_ ?_ (.of_le ?_ ?_)
  · rw [hbytes]
    rfl
  all_goals omega

end Sample

end Inator
