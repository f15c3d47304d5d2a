import Inator.Lib.Fifo
import Inator.Lib.Simulation
import Inator.Ports.Tcp.Network
import Inator.Verify.Wire

/-! # From the server to a client

All that can be seen of the stream from a `ServerTcp` to one of its clients is a queue: the calls
of `send_message` write to it in the order in which they take the mutex of the stream, and the
reader of the client reads from it. -/

namespace Inator

namespace ClientReader
variable {H : Framing.Header UInt8} {reader after : ClientReader} {events : List ClientEvent}

/-- The messages that the reader sends. -/
def received (events : List ClientEvent) : List (List UInt8) :=
  events.filterMap fun
    | .messageReceived bytes => some bytes
    | _ => none

/-- The reader is where the bytes that it has taken have led it. -/
def Follows (H : Framing.Header UInt8) (reader : ClientReader) : Prop :=
  match reader.phase with
  | .locking => reader.consumed = []
  | .reading state => (Framing.feedAll H .start reader.consumed).1 = state
  | .returned => True

/-- **A step of the reader** sends the messages that the bytes it takes complete, unless it meets
a size that it refuses. -/
theorem run_spec (h : reader.run = some (after, events))
    (hframing : frameHeader reader.bytes reader.order = H) (hfollows : reader.Follows H)
    (hwhole : (Framing.parse H after.consumed).ending ≠ .refused) :
    after.Follows H ∧ (Framing.parse H after.consumed).frames =
      (Framing.parse H reader.consumed).frames ++ received events := by
  simp only [run] at h
  split at h
  · rename_i hphase
    cases h
    rw [Follows, hphase] at hfollows
    refine ⟨?_, (List.append_nil _).symm⟩
    simp only [Follows, hfollows, Framing.feedAll, Framing.State.start]
  · rename_i state hphase
    rw [Follows, hphase] at hfollows
    split at h
    · rename_i b rest hpending
      have hfeed := Framing.feedAll_snoc (H := H) .start reader.consumed b
      rw [hfollows] at hfeed
      have hframes : ∀ body : Option (List UInt8), (Framing.feed H state b).2 = body →
          (Framing.parse H (reader.consumed ++ [b])).frames =
            (Framing.parse H reader.consumed).frames ++ body.toList := by
        rintro body rfl
        have hparse := congrArg Prod.snd hfeed
        rwa [Framing.feedAll_parse, Framing.feedAll_parse] at hparse
      have hstate : (Framing.feedAll H .start (reader.consumed ++ [b])).1 =
          (Framing.feed H state b).1 := congrArg Prod.fst hfeed
      simp only [take, hframing, Option.some.injEq] at h
      split at h
      · rename_i body hfed
        cases h
        refine ⟨?_, hframes (some body) (congrArg Prod.snd hfed)⟩
        exact hstate.trans (Framing.feed_some hfed ▸ congrArg Prod.fst hfed)
      · rename_i hfed
        cases h
        refine absurd ?_ hwhole
        have hrefused := hstate.trans (congrArg Prod.fst hfed)
        rw [Framing.feedAll_parse] at hrefused
        exact Framing.Ending.state_eq_refused.mp hrefused
      · rename_i hfed
        cases h
        exact ⟨hstate.trans (congrArg Prod.fst hfed), hframes none (congrArg Prod.snd hfed)⟩
    · split at h
      · cases h
        exact ⟨trivial, (List.append_nil _).symm⟩
      · cases h
  · cases h

/-- A step of the reader takes bytes that have come, and brings none. -/
theorem run_bytes (h : reader.run = some (after, events)) :
    after.consumed ++ after.pending = reader.consumed ++ reader.pending ∧
      after.closed = reader.closed ∧ after.bytes = reader.bytes ∧ after.order = reader.order := by
  simp only [run] at h
  split at h
  · cases h
    exact ⟨rfl, rfl, rfl, rfl⟩
  · split at h
    · rename_i b rest hpending
      have htaken : (reader.consumed ++ [b]) ++ rest = reader.consumed ++ reader.pending := by
        rw [hpending, List.append_assoc]
        rfl
      simp only [take, Option.some.injEq] at h
      split at h
      all_goals
        cases h
        exact ⟨htaken, rfl, rfl, rfl⟩
    · split at h
      · cases h
        exact ⟨rfl, rfl, rfl, rfl⟩
      · cases h
  · cases h

end ClientReader

abbrev DownlinkTransition (τ : Type) [UserMessages τ] :=
  Machine.Transition TcpDownlink (DownlinkInput τ) (List ClientEvent)

section Downlink
variable {τ : Type} [UserMessages τ] {H : Framing.Header UInt8}

/-- No write fails, and each message is legible at the other end. -/
structure DownlinkTransition.Sound (H : Framing.Header UInt8) (t : DownlinkTransition τ) :
    Prop where
  fails : ∀ i, t.input ≠ .writers (.fail i)
  legible : t.post.writers.AllLegible H

/-- The calls that take the lock in a step write, and the messages that the reader sends are
read. -/
def DownlinkTransition.see (t : DownlinkTransition τ) : List (Fifo.Event (List UInt8)) :=
  ((t.pre.writers.locks t.post.writers).map t.post.writers.payloadOf).map .wrote ++
    (ClientReader.received t.output).map .got

/-- The bytes have come, the reader has followed them, and the messages it has not sent yet are on
the way. -/
structure TcpDownlink.Explained (H : Framing.Header UInt8) (link : TcpDownlink)
    (queue : List (List UInt8)) : Prop where
  framing : frameHeader link.reader.bytes link.reader.order = H
  guarded : Appenders.Guarded link.writers.appenders
  carried : Carried (link.writers.wire.map Prod.snd) link.reader.consumed link.reader.pending
    link.reader.closed link.arrived
  follows : link.reader.Follows H
  onTheWay : TcpWriters.OnTheWay H link.writers link.reader.consumed queue

variable [Ciborium τ] {sender : TcpSender} {runtime : Option Runtime} {t : DownlinkTransition τ}
  {queue : List (List UInt8)}

theorem TcpDownlink.explained_step (h : t.pre.Explained H queue)
    (hof : t.Of (downlinkMachine τ sender runtime)) (hsound : t.Sound H) :
    ∃ us queue', (Fifo.machine (List UInt8)).Run queue us queue' ∧ us.flatMap Fifo.see = t.see ∧
      t.post.Explained H queue' := by
  obtain ⟨pre, input, output, post⟩ := t
  obtain ⟨hfails, hlegible⟩ := hsound
  change TcpDownlink.step sender runtime pre input = some (post, output) at hof
  have hquiet : ∀ {link : TcpDownlink}, link.writers = pre.writers → link.Explained H queue →
      ∃ us queue', (Fifo.machine (List UInt8)).Run queue us queue' ∧
        us.flatMap Fifo.see =
          DownlinkTransition.see (⟨pre, input, [], link⟩ : DownlinkTransition τ) ∧
        link.Explained H queue' := by
    intro link hwriters hlink
    refine ⟨[], queue, .nil, ?_, hlink⟩
    rw [DownlinkTransition.see, hwriters, TcpWriters.locks_self]
    rfl
  cases input with
  | writers input =>
    obtain ⟨⟨writers, _⟩, hstep, heq⟩ := Option.map_eq_some_iff.mp hof
    cases heq
    have hfail : ∀ i, input ≠ .fail i := fun i heq => hfails i (congrArg _ heq)
    have hway := h.onTheWay.written h.guarded hstep hfail
    have hboth : queue ++ (pre.writers.locks writers).map writers.payloadOf =
        [] ++ (queue ++ (pre.writers.locks writers).map writers.payloadOf) := rfl
    obtain ⟨us, hrun, hsee⟩ := Fifo.run_both hboth
    refine ⟨us, _, hrun, hsee, h.framing, ?_, ?_, h.follows, hway⟩
    · cases TcpWriters.step_appends hstep with
      | step step => exact h.guarded.step step
      | stutter same =>
        rw [same]
        exact h.guarded
      | failed _ failure => exact h.guarded.failure failure
    · exact h.carried.grow ((TcpWriters.wire_step hstep).map Prod.snd)
  | arrive count =>
    simp only [TcpDownlink.step] at hof
    split at hof
    · cases hof
    · rename_i hopen
      cases hof
      have hopen := Bool.eq_false_iff.mpr hopen
      have hcarried := h.carried
      rw [hopen] at hcarried
      refine hquiet rfl ⟨h.framing, h.guarded, ?_, h.follows, h.onTheWay⟩
      simp only [hopen]
      exact hcarried.arrive count
  | close =>
    simp only [TcpDownlink.step] at hof
    split at hof
    · cases hof
    · cases hof
      exact hquiet rfl ⟨h.framing, h.guarded, h.carried.close, h.follows, h.onTheWay⟩
  | fail =>
    simp only [TcpDownlink.step] at hof
    split at hof
    · cases hof
    · cases hof
      exact hquiet rfl ⟨h.framing, h.guarded, h.carried.fail, h.follows, h.onTheWay⟩
  | reader =>
    obtain ⟨⟨reader, events⟩, hrun, heq⟩ := Option.map_eq_some_iff.mp hof
    cases heq
    obtain ⟨hbytes, hclosed, hoption, horder⟩ := ClientReader.run_bytes hrun
    have hcarried := h.carried.taken hbytes
    rw [← hclosed] at hcarried
    have hwhole := h.onTheWay.whole h.guarded hlegible hcarried.consumed_begins
    obtain ⟨hfollows, hframes⟩ := ClientReader.run_spec hrun h.framing h.follows hwhole
    obtain ⟨queue', hqueue, hway⟩ := h.onTheWay.read h.guarded hlegible hcarried.consumed_begins
      hframes
    have hboth : queue ++ [] = ClientReader.received output ++ queue' := by
      rw [List.append_nil, hqueue]
    obtain ⟨us, hus, hsee⟩ := Fifo.run_both hboth
    refine ⟨us, queue', hus, ?_, ?_, h.guarded, hcarried, hfollows, hway⟩
    · rw [hsee, DownlinkTransition.see, TcpWriters.locks_self]
      rfl
    · rw [hoption, horder]
      exact h.framing

/-- A connection from a server to a client is a queue. -/
theorem downlink_simulates (sender : TcpSender) (runtime : Option Runtime) (bytes : BytesOptions)
    (order : OrderOptions) :
    Machine.Simulation (downlinkMachine τ sender runtime) (.new bytes order)
      (Fifo.machine (List UInt8)) (DownlinkTransition.Sound (frameHeader bytes order))
      (TcpDownlink.Explained (frameHeader bytes order)) DownlinkTransition.see Fifo.see where
  step _ _ _ _ hof _ hsound hrel := TcpDownlink.explained_step hrel hof hsound

theorem TcpDownlink.explained_start (bytes : BytesOptions) (order : OrderOptions) :
    (TcpDownlink.new bytes order).Explained (frameHeader bytes order) [] where
  framing := rfl
  guarded := .start
  carried := .start _
  follows := rfl
  onTheWay := .start _

/-- Nobody writes, and the client has taken all that was written. -/
def TcpDownlink.CaughtUp (link : TcpDownlink) : Prop :=
  link.writers.holder = none ∧ link.arrived = (link.writers.wire.map Prod.snd).length ∧
    link.reader.closed = false ∧ link.reader.pending = []

theorem TcpDownlink.Explained.complete {link : TcpDownlink} (h : link.Explained H queue)
    (hlegible : link.writers.AllLegible H) (hcaught : link.CaughtUp) : queue = [] := by
  obtain ⟨hholder, harrived, hopen, hpending⟩ := hcaught
  have hcarried := h.carried
  rw [hopen] at hcarried
  exact h.onTheWay.complete hlegible h.guarded hholder (hcarried.complete hpending harrived)

/-- **A connection from a server to a client is a queue**, and it is empty when nobody writes and
the client has taken all that was written. -/
theorem downlink_refines_fifo (sender : TcpSender) (runtime : Option Runtime)
    (bytes : BytesOptions) (order : OrderOptions) (ts : List (DownlinkTransition τ))
    (link : TcpDownlink)
    (h : (downlinkMachine τ sender runtime).Run (.new bytes order) ts link)
    (hsound : ∀ t ∈ ts, DownlinkTransition.Sound (frameHeader bytes order) t) :
    ∃ us queue, (Fifo.machine (List UInt8)).Run [] us queue ∧
      us.flatMap Fifo.see = ts.flatMap DownlinkTransition.see ∧
      (link.CaughtUp → queue = []) := by
  obtain ⟨us, queue, hrun, hsee, hexplained⟩ :=
    (downlink_simulates (τ := τ) sender runtime bytes order).run
      (TcpDownlink.explained_start bytes order) h hsound
  refine ⟨us, queue, hrun, hsee, hexplained.complete ?_⟩
  refine h.history (fun ts link =>
    (∀ t ∈ ts, DownlinkTransition.Sound (frameHeader bytes order) t) →
      link.writers.AllLegible (frameHeader bytes order)) ?_ ?_ hsound
  · exact fun _ writer hwriter => absurd hwriter List.not_mem_nil
  · intro ts t _ _ _ hsound
    exact (hsound t (List.mem_append_right _ (List.mem_singleton_self t))).legible

end Downlink

namespace Sample

/-- A `ServerTcp` that listens to a client. -/
def listeningServer : ServerPort :=
  { ServerPort.new (.tcp .default) with listeningClients := AList.singleton 7 ⟨⟨0, .stream⟩, true⟩ }

/-- Two messages are sent, and the second call takes the lock first. The client reads its message
while the other one is being written. -/
def downlinkInputs : List (DownlinkInput Sample) :=
  [.writers (.sendMessage (.user .ticket) (42 : UInt8)),
    .writers (.sendMessage (.user .ticket) (43 : UInt8))] ++
  List.replicate 9 (.writers (.writer 1)) ++ List.replicate 3 (.writers (.writer 0)) ++
  [.arrive 4, .arrive 100] ++ List.replicate 9 .reader

def downlinkRun : List (DownlinkTransition Sample) × TcpDownlink :=
  ((downlinkMachine Sample (.server listeningServer 7) (some .new)).exec
    (.new .u32 .littleEndian) downlinkInputs).getD ([], .new .u32 .littleEndian)

theorem run_downlinkRun : (downlinkMachine Sample (.server listeningServer 7) (some .new)).Run
    (.new .u32 .littleEndian) downlinkRun.1 downlinkRun.2 := by
  have hexec : (downlinkMachine Sample (.server listeningServer 7) (some .new)).exec
    (.new .u32 .littleEndian) downlinkInputs = some downlinkRun := rfl
  exact .of_exec hexec

theorem sound_downlinkRun : ∀ t ∈ downlinkRun.1,
    DownlinkTransition.Sound (frameHeader .u32 .littleEndian) t := by
  have hall : downlinkRun.1.all (fun t => (match t.input with
    | .writers (.fail _) => false
    | _ => true) && t.post.writers.writers.all short) = true := rfl
  intro t ht
  have ht := List.all_eq_true.mp hall t ht
  rw [Bool.and_eq_true] at ht
  refine ⟨fun i hinput => ?_, fun writer hwriter => ?_⟩
  · have hfails := ht.1
    rw [hinput] at hfails
    cases hfails
  · exact legible_of_short (List.all_eq_true.mp ht.2 writer hwriter)

end Sample

theorem downlink_refines_fifo_downlinkRun :
    ∃ us queue, (Fifo.machine (List UInt8)).Run [] us queue ∧
      us.flatMap Fifo.see = Sample.downlinkRun.1.flatMap DownlinkTransition.see ∧
      (Sample.downlinkRun.2.CaughtUp → queue = []) :=
  downlink_refines_fifo (.server Sample.listeningServer 7) (some .new) .u32 .littleEndian _ _
    Sample.run_downlinkRun Sample.sound_downlinkRun

end Inator
