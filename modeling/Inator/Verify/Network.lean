import Inator.Lib.Fifo
import Inator.Lib.Simulation
import Inator.Ports.Tcp.Network
import Inator.Verify.HandOver
import Inator.Verify.Wire

/-! # From the clients to the server

Any number of clients are connected to a `ServerTcp`, among others that send it anything. All that
can be seen of the stream of one of them is a queue: its calls of `send_message` write to it in
the order in which they take the mutex of the stream, and the readers of the server read from it,
whichever of them has the stream at the time. -/

namespace Inator

/-! ## A step of the server -/

/-- A step of a reader takes bytes that have come, and brings none. -/
theorem Reader.Moves.bytes {i : Nat} {reader : Reader} {peer : Peer} {port : ServerPort}
    {channelHolder : Option Nat} {moved : ReaderStep}
    (h : reader.Moves i peer port channelHolder moved) :
    moved.peer.consumed ++ moved.peer.arrived = peer.consumed ++ peer.arrived ∧
      moved.peer.closed = peer.closed := by
  cases h with
  | took _ arrived | panicked _ arrived | finished _ arrived =>
    refine ⟨?_, rfl⟩
    rw [arrived, List.append_assoc]
    rfl
  | locked | lockedChannel | drained | popped | handedOver | disconnected => exact ⟨rfl, rfl⟩

namespace TcpServer
variable {server after : TcpServer} {input : TcpInput} {output : TcpOutput} {stream : Nat}
  {settings : TcpSettingsServer} {wire : List UInt8} {arrived : Nat}

/-- The messages of a stream that a step pushes. -/
def readsOf (server : TcpServer) (stream : Nat) (input : TcpInput) (output : TcpOutput) :
    List (List UInt8) :=
  match input with
  | .reader i =>
    if (server.readers[i]?).map (·.stream.id) = some stream then output.pushed.map Prod.fst else []
  | _ => []

/-- The bytes that were taken from a stream. -/
def consumedAt (server : TcpServer) (stream : Nat) : List UInt8 :=
  ((server.peers[stream]?).map Peer.consumed).getD []

theorem consumedAt_eq {peer : Peer} (h : server.peers[stream]? = some peer) :
    server.consumedAt stream = peer.consumed := by
  rw [consumedAt, h]
  rfl

/-- Of the bytes on the wire of a stream, `arrived` have come to the server. -/
structure Carries (server : TcpServer) (stream : Nat) (wire : List UInt8) (arrived : Nat) :
    Prop where
  unconnected : server.peers[stream]? = none → arrived = 0
  carried : ∀ peer, server.peers[stream]? = some peer →
    Carried wire peer.consumed peer.arrived peer.closed arrived

namespace Carries

theorem start (settings : TcpSettingsServer) (stream : Nat) (wire : List UInt8) :
    (new settings).Carries stream wire 0 :=
  ⟨fun _ => rfl, fun peer h => by cases h⟩

theorem grow (h : server.Carries stream wire arrived) {wire' : List UInt8}
    (hwire : wire <+: wire') : server.Carries stream wire' arrived :=
  ⟨h.unconnected, fun peer hpeer => (h.carried peer hpeer).grow hwire⟩

theorem consumed_begins (h : server.Carries stream wire arrived) :
    server.consumedAt stream <+: wire := by
  cases hpeer : server.peers[stream]? with
  | none =>
    rw [consumedAt, hpeer]
    exact List.nil_prefix
  | some peer =>
    rw [consumedAt_eq hpeer]
    exact (h.carried peer hpeer).consumed_begins

/-- Another stream is changed, or this one as `hsame` says. -/
theorem set (h : server.Carries stream wire arrived) {peers : List Peer} {id : Nat}
    {before peer : Peer} (hpeers : peers = server.peers.set id peer)
    (hlookup : server.peers[id]? = some before) {arrived' : Nat}
    (hother : stream ≠ id → arrived' = arrived)
    (hsame : stream = id → Carried wire before.consumed before.arrived before.closed arrived →
      Carried wire peer.consumed peer.arrived peer.closed arrived') (hafter : after.peers = peers) :
    after.Carries stream wire arrived' := by
  subst hpeers
  constructor
  · intro hnone
    have hlt := (List.getElem?_eq_some_iff.mp hlookup).1
    rw [hafter, List.getElem?_eq_none_iff, List.length_set] at hnone
    have hne : stream ≠ id := by omega
    rw [hother hne]
    exact h.unconnected (List.getElem?_eq_none_iff.mpr hnone)
  · intro peer' hpeer'
    rw [hafter] at hpeer'
    rcases of_getElem?_set hpeer' with ⟨hid, rfl⟩ | ⟨hid, hold⟩
    · exact hsame hid (h.carried before (hid ▸ hlookup))
    · rw [hother hid]
      exact h.carried peer' hold

theorem modified (h : server.Carries stream wire arrived) {id : Nat} {f : Peer → Peer}
    {arrived' : Nat} (hmodify : server.modifyPeer id f = some (after, output))
    (hother : stream ≠ id → arrived' = arrived)
    (hsame : stream = id → ∀ before, before.closed = false →
      Carried wire before.consumed before.arrived false arrived →
        Carried wire (f before).consumed (f before).arrived (f before).closed arrived') :
    after.Carries stream wire arrived' := by
  unfold modifyPeer at hmodify
  split at hmodify
  · cases hmodify
  · rename_i before hlookup
    split at hmodify
    · cases hmodify
    · rename_i hopen
      cases hmodify
      have hopen := Bool.eq_false_iff.mpr hopen
      refine h.set rfl hlookup hother (fun hid hcarried => ?_) rfl
      rw [hopen] at hcarried
      exact hsame hid before hopen hcarried

/-- **A step of the server** takes bytes that have come, and brings none, unless it is the one
that sends them. -/
theorem step (h : server.Carries stream wire arrived)
    (hstep : server.step input = some (after, output))
    (hsend : ∀ bytes, input ≠ .send stream bytes) :
    after.Carries stream wire arrived := by
  have hkept : after.peers = server.peers → after.Carries stream wire arrived := by
    intro hpeers
    refine ⟨fun hnone => h.unconnected (hpeers ▸ hnone), fun peer hpeer => ?_⟩
    exact h.carried peer (hpeers ▸ hpeer)
  cases input with
  | startRuntime | authenticateClient =>
    cases hstep
    exact hkept rfl
  | portOp op =>
    simp only [TcpServer.step] at hstep
    split at hstep
    · cases hstep
    · unfold portOp at hstep
      split at hstep
      · cases hstep
      · cases hstep
        exact hkept rfl
  | connect kind =>
    cases hstep
    constructor
    · intro hnone
      refine h.unconnected (List.getElem?_eq_none_iff.mpr ?_)
      have hlength := List.getElem?_eq_none_iff.mp hnone
      rw [TcpServer.accept, List.length_append] at hlength
      omega
    · intro peer hpeer
      rcases accept_peer hpeer with hold | ⟨rfl, rfl⟩
      · exact h.carried peer hold
      · rw [h.unconnected (List.getElem?_eq_none_iff.mpr Nat.le.refl)]
        exact .start wire
  | send id bytes =>
    refine h.modified hstep (fun _ => rfl) ?_
    rintro rfl
    exact absurd rfl (hsend bytes)
  | close id => exact h.modified hstep (fun _ => rfl) fun _ _ _ hcarried => hcarried.close
  | fail id => exact h.modified hstep (fun _ => rfl) fun _ _ _ hcarried => hcarried.fail
  | reader i =>
    obtain ⟨reader, peer, moved, -, hpeer, hmoves, rfl, -⟩ := readerStep_spec hstep
    obtain ⟨hbytes, hclosed⟩ := hmoves.bytes
    refine h.set rfl hpeer (fun _ => rfl) (fun _ hcarried => ?_) rfl
    rw [hclosed]
    exact hcarried.taken hbytes

/-- Bytes of the wire come to the server. -/
theorem arrive (h : server.Carries stream wire arrived) {count : Nat}
    (hstep : server.step (.send stream ((wire.drop arrived).take count)) = some (after, output)) :
    after.Carries stream wire (arrived + ((wire.drop arrived).take count).length) := by
  refine h.modified hstep (fun hne => absurd rfl hne) ?_
  intro _ before hopen hcarried
  simp only [hopen]
  exact hcarried.arrive count

end Carries

/-- A step that is not one of a reader of the stream takes nothing from it. -/
theorem step_frames {H : Framing.Header UInt8} {pushed : List (List UInt8 × Uuid)}
    (h : server.step input = some (after, output)) (hregistered : server.Registered settings)
    (hlocks : server.Locks) (hhands : server.HandsOver H pushed)
    (hframing : frameHeader settings.bytes settings.order = H)
    (hwhole : (Framing.parse H (after.consumedAt stream)).ending ≠ .refused) :
    (Framing.parse H (after.consumedAt stream)).frames =
      (Framing.parse H (server.consumedAt stream)).frames ++
        server.readsOf stream input output := by
  have hkept : after.consumedAt stream = server.consumedAt stream →
      server.readsOf stream input output = [] → (Framing.parse H (after.consumedAt stream)).frames =
        (Framing.parse H (server.consumedAt stream)).frames ++
          server.readsOf stream input output := by
    intro hsame hnone
    rw [hsame, hnone, List.append_nil]
  have hmodified : ∀ {id f}, server.modifyPeer id f = some (after, output) →
      (∀ peer, (f peer).consumed = peer.consumed) →
        after.consumedAt stream = server.consumedAt stream := by
    intro id f hmodify hconsumed
    unfold modifyPeer at hmodify
    split at hmodify
    · cases hmodify
    · rename_i before hlookup
      split at hmodify
      · cases hmodify
      · cases hmodify
        simp only [consumedAt, List.getElem?_set]
        split
        · rename_i hid
          subst hid
          rw [if_pos (List.getElem?_eq_some_iff.mp hlookup).1, hlookup, Option.map_some,
            Option.map_some, hconsumed]
        · rfl
  cases input with
  | startRuntime | authenticateClient =>
    cases h
    exact hkept rfl rfl
  | portOp op =>
    simp only [step] at h
    split at h
    · cases h
    · unfold portOp at h
      split at h
      · cases h
      · cases h
        exact hkept rfl rfl
  | connect kind =>
    cases h
    refine hkept ?_ rfl
    simp only [consumedAt, accept, List.getElem?_append]
    split
    · rfl
    · rename_i hlt
      rw [List.getElem?_eq_none_iff.mpr (Nat.le_of_not_lt hlt)]
      cases stream - server.peers.length <;> rfl
  | send | close | fail => exact hkept (hmodified h fun _ => rfl) rfl
  | reader i =>
    obtain ⟨reader, peer, moved, hreader, hpeer, hmoves, rfl, rfl⟩ := readerStep_spec h
    have hreads : server.readsOf stream (.reader i) ⟨moved.pushed, []⟩ =
        if reader.stream.id = stream then moved.pushed.map Prod.fst else [] := by
      simp only [readsOf, hreader, Option.map_some, Option.some.injEq]
    rw [hreads]
    by_cases hid : reader.stream.id = stream
    · subst hid
      have hset : (server.stepped i reader moved).peers[reader.stream.id]? = some moved.peer := by
        rw [stepped, List.getElem?_set_self (List.getElem?_eq_some_iff.mp hpeer).1]
      rw [consumedAt_eq hset] at hwhole ⊢
      rw [consumedAt_eq hpeer, if_pos rfl]
      obtain ⟨-, hbytes, horder⟩ := hregistered.readers reader (List.mem_of_getElem? hreader)
      rw [← hbytes, ← horder] at hframing
      have hcut := hlocks.cut_eq hreader hpeer hmoves
      have hframes := (hmoves.reads hframing (fun hwhole => hcut ▸ hhands.cut _ peer hpeer hwhole)
        (Peer.whole_iff.mpr hwhole)).2.2
      rwa [Framing.feedAll_parse, Framing.feedAll_parse] at hframes
    · rw [if_neg hid, List.append_nil, consumedAt, consumedAt, stepped, List.getElem?_set_ne hid]

end TcpServer

/-! ## The runs of the network -/

abbrev NetworkTransition (τ : Type) [UserMessages τ] :=
  Machine.Transition TcpNetwork (NetworkInput τ) TcpOutput

namespace TcpNetwork
variable {τ : Type} [UserMessages τ]

/-- What the server does in a step. -/
def serverLabel (t : NetworkTransition τ) : Option (TcpInput × TcpOutput) :=
  match t.input with
  | .server input => some (input, t.output)
  | .writers .. => none
  | .arrive stream count => some (.send stream (t.pre.next stream count), t.output)

/-- What the writers of a stream do in a step. -/
def writersLabel (stream : Nat) (t : NetworkTransition τ) : Option (WriterInput τ × Unit) :=
  match t.input with
  | .writers stream' input => if stream' = stream then some (input, ()) else none
  | .server _ | .arrive .. => none

/-- The server in a run of the network. -/
def serverPart (ts : List (NetworkTransition τ)) : List TcpTransition :=
  ts.filterMap (Machine.Transition.part server serverLabel)

/-- The writers of a stream in a run of the network. -/
def writersPart (stream : Nat) (ts : List (NetworkTransition τ)) : List (WriterTransition τ) :=
  ts.filterMap (Machine.Transition.part (fun network => network.writers stream)
    (writersLabel stream))

/-- The calls of a stream that take the lock in a step. -/
def locked (stream : Nat) (t : NetworkTransition τ) : List Nat :=
  (t.pre.writers stream).locks (t.post.writers stream)

/-- The messages of a stream that the readers of the server push in a step. -/
def got (stream : Nat) (t : NetworkTransition τ) : List (List UInt8) :=
  match t.input with
  | .server input => t.pre.server.readsOf stream input t.output
  | .writers .. | .arrive .. => []

/-- The calls that take the lock in a step write, and the messages that are pushed are read. -/
def see (stream : Nat) (t : NetworkTransition τ) : List (Fifo.Event (List UInt8)) :=
  ((locked stream t).map (t.post.writers stream).payloadOf).map .wrote ++ (got stream t).map .got

/-- No write to the stream fails, and each message is legible at the server. -/
structure Sound (H : Framing.Header UInt8) (stream : Nat) (t : NetworkTransition τ) : Prop where
  fails : ∀ i, t.input ≠ .writers stream (.fail i)
  legible : (t.post.writers stream).AllLegible H

/-- Of the messages of a stream, those in the queue are on the way. -/
structure Explained (H : Framing.Header UInt8) (stream : Nat) (network : TcpNetwork)
    (queue : List (List UInt8)) : Prop where
  carries : network.server.Carries stream (network.wire stream) (network.arrived stream)
  onTheWay : (network.writers stream).OnTheWay H (network.server.consumedAt stream) queue

theorem explained_start (settings : TcpSettingsServer) (H : Framing.Header UInt8) (stream : Nat) :
    (new settings).Explained H stream [] where
  carries := .start settings stream _
  onTheWay := .start H

variable [Ciborium τ] {senders : Nat → Option TcpSender} {runtime : Option Runtime}
  {settings : TcpSettingsServer} {ts : List (NetworkTransition τ)} {network : TcpNetwork}
  {stream : Nat} {sender : TcpSender} {t : NetworkTransition τ}

/-- What a step does. -/
theorem step_spec {after : TcpNetwork} {input : NetworkInput τ} {output : TcpOutput}
    (h : step senders runtime network input = some (after, output)) :
    (∃ input', input = .server input' ∧ forges senders input' = false ∧
        network.server.step input' = some (after.server, output) ∧
        after.writers = network.writers ∧ after.arrived = network.arrived) ∨
      (∃ stream input' sender writers, input = .writers stream input' ∧
        senders stream = some sender ∧
        TcpWriters.step sender runtime (network.writers stream) input' = some (writers, ()) ∧
        after = { network with
          writers := Function.update network.writers stream writers } ∧ output = TcpServer.quiet) ∨
      ∃ stream count server, input = .arrive stream count ∧
        network.server.step (.send stream (network.next stream count)) = some (server, output) ∧
        after = { network with
          server := server
          arrived := Function.update network.arrived stream
            (network.arrived stream + (network.next stream count).length) } := by
  cases input with
  | server input =>
    simp only [step] at h
    split at h
    · cases h
    · rename_i hforges
      obtain ⟨⟨server, output'⟩, hstep, heq⟩ := Option.map_eq_some_iff.mp h
      cases heq
      exact .inl ⟨input, rfl, Bool.eq_false_iff.mpr hforges, hstep, rfl, rfl⟩
  | writers stream input =>
    simp only [step] at h
    split at h
    · cases h
    · rename_i sender hsender
      obtain ⟨⟨writers, _⟩, hstep, heq⟩ := Option.map_eq_some_iff.mp h
      cases heq
      exact .inr (.inl ⟨stream, input, sender, writers, rfl, hsender, hstep, rfl, rfl⟩)
  | arrive stream count =>
    simp only [step] at h
    split at h
    · obtain ⟨⟨server, output'⟩, hstep, heq⟩ := Option.map_eq_some_iff.mp h
      cases heq
      exact .inr (.inr ⟨stream, count, server, rfl, hstep, rfl⟩)
    · cases h

theorem server_idle (hof : t.Of (networkMachine τ senders runtime))
    (hlabel : serverLabel t = none) :
    t.post.server = t.pre.server := by
  rcases step_spec hof with ⟨input, hinput, -⟩ | ⟨_, _, _, _, -, -, -, hpost, -⟩ |
    ⟨_, _, _, hinput, -⟩
  · rw [serverLabel, hinput] at hlabel
    cases hlabel
  · rw [hpost]
  · rw [serverLabel, hinput] at hlabel
    cases hlabel

theorem server_moves (hof : t.Of (networkMachine τ senders runtime)) {l : TcpInput × TcpOutput}
    (hlabel : serverLabel t = some l) : t.pre.server.step l.1 = some (t.post.server, l.2) := by
  rcases step_spec hof with ⟨input, hinput, -, hstep, -⟩ | ⟨_, _, _, _, hinput, -⟩ |
    ⟨stream, count, server, hinput, hstep, hpost⟩
  · rw [serverLabel, hinput] at hlabel
    cases hlabel
    exact hstep
  · rw [serverLabel, hinput] at hlabel
    cases hlabel
  · rw [serverLabel, hinput] at hlabel
    cases hlabel
    rw [hpost]
    exact hstep

theorem writers_idle (hof : t.Of (networkMachine τ senders runtime))
    (hlabel : writersLabel stream t = none) : t.post.writers stream = t.pre.writers stream := by
  rcases step_spec hof with ⟨_, -, -, -, hwriters, -⟩ | ⟨_, _, _, _, hinput, -, -, hpost, -⟩ |
    ⟨_, _, _, -, -, hpost⟩
  · rw [hwriters]
  · rw [writersLabel, hinput] at hlabel
    simp only at hlabel
    split at hlabel
    · cases hlabel
    · rename_i hne
      rw [hpost]
      exact Function.update_of_ne (Ne.symm hne) _ _
  · rw [hpost]

theorem writers_moves (hsender : senders stream = some sender)
    (hof : t.Of (networkMachine τ senders runtime)) {l : WriterInput τ × Unit}
    (hlabel : writersLabel stream t = some l) :
    TcpWriters.step sender runtime (t.pre.writers stream) l.1 =
      some (t.post.writers stream, l.2) := by
  rcases step_spec hof with ⟨_, hinput, -⟩ |
    ⟨stream', input, sender', writers, hinput, hsender', hstep, hpost, -⟩ | ⟨_, _, _, hinput, -⟩
  · rw [writersLabel, hinput] at hlabel
    cases hlabel
  · rw [writersLabel, hinput] at hlabel
    simp only at hlabel
    split at hlabel
    · rename_i heq
      cases hlabel
      subst heq
      cases hsender.symm.trans hsender'
      rw [hpost]
      simp only [Function.update_self]
      exact hstep
    · cases hlabel
  · rw [writersLabel, hinput] at hlabel
    cases hlabel

/-- In a run of the network, the server is in a run of its own. -/
theorem server_run (h : (networkMachine τ senders runtime).Run (.new settings) ts network) :
    tcpMachine.Run (.new settings) (serverPart ts) network.server :=
  h.project server serverLabel (fun _ hof hlabel => server_idle hof hlabel)
    fun _ hof _ hlabel => server_moves hof hlabel

/-- In a run of the network, the writers of a stream are in a run of their own. -/
theorem writers_run (h : (networkMachine τ senders runtime).Run (.new settings) ts network)
    (hsender : senders stream = some sender) :
    (writerMachine τ sender runtime).Run .new (writersPart stream ts) (network.writers stream) :=
  h.project (fun network => network.writers stream) (writersLabel stream)
    (fun _ hof hlabel => writers_idle hof hlabel)
    fun _ hof _ hlabel => writers_moves hsender hof hlabel

omit [Ciborium τ] in
/-- A step in which the writers do nothing is one of the readers, or of nobody. -/
theorem Explained.read {H : Framing.Header UInt8} {queue : List (List UInt8)}
    (h : t.pre.Explained H stream queue) (hguarded : Appenders.Guarded
      (t.pre.writers stream).appenders) (hlegible : (t.pre.writers stream).AllLegible H)
    (hwriters : t.post.writers stream = t.pre.writers stream)
    (hcarries : t.post.server.Carries stream (t.post.wire stream) (t.post.arrived stream))
    (hframes : (Framing.parse H (t.post.server.consumedAt stream)).ending ≠ .refused →
      (Framing.parse H (t.post.server.consumedAt stream)).frames =
        (Framing.parse H (t.pre.server.consumedAt stream)).frames ++ got stream t) :
    ∃ us queue', (Fifo.machine (List UInt8)).Run queue us queue' ∧
      us.flatMap Fifo.see = see stream t ∧ t.post.Explained H stream queue' := by
  have hwire : t.post.server.consumedAt stream <+: (t.pre.writers stream).wire.map Prod.snd := by
    have hbegins := hcarries.consumed_begins
    rwa [wire, hwriters] at hbegins
  have hwhole := h.onTheWay.whole hguarded hlegible hwire
  obtain ⟨queue', hqueue, hway⟩ := h.onTheWay.read hguarded hlegible hwire (hframes hwhole)
  have hboth : queue ++ [] = got stream t ++ queue' := by
    rw [List.append_nil, hqueue]
  obtain ⟨us, hus, hsee⟩ := Fifo.run_both hboth
  refine ⟨us, queue', hus, ?_, hcarries, ?_⟩
  · rw [hsee, see, locked, hwriters, TcpWriters.locks_self]
    rfl
  · rw [hwriters]
    exact hway

/-- What a step takes from a stream are the messages that it pushes. -/
theorem frames_step {H : Framing.Header UInt8}
    (hframing : frameHeader settings.bytes settings.order = H)
    (hrun : (networkMachine τ senders runtime).Run (.new settings) ts t.pre)
    (hof : t.Of (networkMachine τ senders runtime))
    (hwhole : (Framing.parse H (t.post.server.consumedAt stream)).ending ≠ .refused) :
    (Framing.parse H (t.post.server.consumedAt stream)).frames =
      (Framing.parse H (t.pre.server.consumedAt stream)).frames ++ got stream t := by
  have hregistered := registered_run (server_run hrun)
  obtain ⟨hlocks, hhands⟩ := handsOver_run (server_run hrun)
  rw [hframing] at hhands
  rcases step_spec hof with ⟨input, hinput, -, hstep, -⟩ | ⟨_, _, _, _, hinput, -, -, hpost, -⟩ |
    ⟨_, count, server, hinput, hstep, hpost⟩
  · rw [got, hinput]
    exact TcpServer.step_frames hstep hregistered hlocks hhands hframing hwhole
  · rw [got, hinput, hpost, List.append_nil]
  · rw [hpost] at hwhole ⊢
    rw [got, hinput]
    exact TcpServer.step_frames hstep hregistered hlocks hhands hframing hwhole

/-- **A step of the network** is a step of the queue of each of its sound streams, or of nobody. -/
theorem explained_step {H : Framing.Header UInt8} {queue : List (List UInt8)}
    (hframing : frameHeader settings.bytes settings.order = H)
    (hsender : senders stream = some sender) (h : t.pre.Explained H stream queue)
    (hrun : (networkMachine τ senders runtime).Run (.new settings) ts t.pre)
    (hof : t.Of (networkMachine τ senders runtime)) (hsound : Sound H stream t) :
    ∃ us queue', (Fifo.machine (List UInt8)).Run queue us queue' ∧
      us.flatMap Fifo.see = see stream t ∧ t.post.Explained H stream queue' := by
  have hguarded := guarded_run (writers_run hrun hsender)
  have hframes : (Framing.parse H (t.post.server.consumedAt stream)).ending ≠ .refused →
      (Framing.parse H (t.post.server.consumedAt stream)).frames =
        (Framing.parse H (t.pre.server.consumedAt stream)).frames ++ got stream t :=
    frames_step hframing hrun hof
  rcases step_spec hof with ⟨input, hinput, hforges, hstep, hwriters, harrived⟩ |
    ⟨stream', input, sender', writers, hinput, hsender', hstep, hpost, -⟩ |
    ⟨stream', count, server, hinput, hstep, hpost⟩
  · have hsame : t.post.writers stream = t.pre.writers stream := congrFun hwriters stream
    have hsend : ∀ bytes, input ≠ .send stream bytes := by
      rintro bytes rfl
      simp only [forges, hsender, Option.isSome_some, Bool.true_eq_false] at hforges
    refine h.read hguarded (hsame ▸ hsound.legible) hsame ?_ hframes
    rw [wire, hsame, harrived]
    exact h.carries.step hstep hsend
  · by_cases hid : stream = stream'
    · subst hid
      cases hsender.symm.trans hsender'
      have hgot : got stream t = [] := by rw [got, hinput]
      have hwriters : t.post.writers stream = writers := by
        rw [hpost]
        exact Function.update_self ..
      have hfail : ∀ i, input ≠ .fail i := by
        rintro i rfl
        exact hsound.fails i hinput
      have hway := h.onTheWay.written hguarded hstep hfail
      have hboth : queue ++ ((t.pre.writers stream).locks writers).map writers.payloadOf =
          [] ++ (queue ++ ((t.pre.writers stream).locks writers).map writers.payloadOf) := rfl
      obtain ⟨us, hus, hsee⟩ := Fifo.run_both hboth
      refine ⟨us, _, hus, ?_, ?_, ?_⟩
      · rw [hsee, see, locked, hgot, hwriters]
      · rw [wire, hwriters, hpost]
        exact h.carries.grow ((TcpWriters.wire_step hstep).map Prod.snd)
      · rw [hwriters, hpost]
        exact hway
    · have hsame : t.post.writers stream = t.pre.writers stream := by
        rw [hpost]
        exact Function.update_of_ne hid _ _
      refine h.read hguarded (hsame ▸ hsound.legible) hsame ?_ hframes
      rw [wire, hsame, hpost]
      exact h.carries
  · have hsame : t.post.writers stream = t.pre.writers stream := by rw [hpost]
    refine h.read hguarded (hsame ▸ hsound.legible) hsame ?_ hframes
    rw [wire, hsame, hpost]
    by_cases hid : stream = stream'
    · subst hid
      simp only [Function.update_self]
      exact h.carries.arrive hstep
    · simp only [Function.update_of_ne hid]
      refine h.carries.step hstep fun bytes heq => ?_
      cases heq
      exact hid rfl

/-- **The network is a queue at each of its sound streams.** -/
theorem simulates (settings : TcpSettingsServer) (senders : Nat → Option TcpSender)
    (runtime : Option Runtime) {stream : Nat} (hsender : senders stream = some sender) :
    Machine.Simulation (networkMachine τ senders runtime) (.new settings)
      (Fifo.machine (List UInt8)) (Sound (frameHeader settings.bytes settings.order) stream)
      (Explained (frameHeader settings.bytes settings.order) stream) (see stream) Fifo.see where
  step _ _ _ hrun hof _ hsound h := explained_step rfl hsender h hrun hof hsound

/-- Nobody writes to the stream, and the server has taken all that was written. -/
def CaughtUp (network : TcpNetwork) (stream : Nat) : Prop :=
  (network.writers stream).holder = none ∧
    network.arrived stream = (network.wire stream).length ∧
      ∃ peer, network.server.peers[stream]? = some peer ∧ peer.closed = false ∧ peer.arrived = []

theorem Explained.complete {H : Framing.Header UInt8} {queue : List (List UInt8)}
    (h : network.Explained H stream queue)
    (hguarded : Appenders.Guarded (network.writers stream).appenders)
    (hlegible : (network.writers stream).AllLegible H) (hcaught : network.CaughtUp stream) :
    queue = [] := by
  obtain ⟨hholder, harrived, peer, hpeer, hopen, hpending⟩ := hcaught
  refine h.onTheWay.complete hlegible hguarded hholder ?_
  have hcarried := h.carries.carried peer hpeer
  rw [hopen] at hcarried
  rw [TcpServer.consumedAt_eq hpeer]
  exact hcarried.complete hpending harrived

/-- What the server pushes in a run of the network. -/
theorem pushes_serverPart
    (h : (networkMachine τ senders runtime).Run (.new settings) ts network) :
    pushes (serverPart ts) = ts.flatMap fun t => t.output.pushed := by
  refine Machine.flatMap_part ?_ ?_
  · intro t ht hlabel
    rcases step_spec (h.forall_of t ht) with ⟨_, hinput, -⟩ | ⟨_, _, _, _, -, -, -, -, houtput⟩ |
      ⟨_, _, _, hinput, -⟩
    · rw [serverLabel, hinput] at hlabel
      cases hlabel
    · rw [houtput]
      rfl
    · rw [serverLabel, hinput] at hlabel
      cases hlabel
  · intro t _ l hlabel
    rw [serverLabel] at hlabel
    split at hlabel <;> cases hlabel <;> rfl

/-- What the writers of a stream do in a run of the network. -/
theorem flatMap_writersPart (hof : ∀ t ∈ ts, t.Of (networkMachine τ senders runtime))
    (f : TcpWriters → TcpWriters → List ω) (hf : ∀ writers, f writers writers = []) :
    ((writersPart stream ts).flatMap fun t => f t.pre t.post) =
      ts.flatMap fun t => f (t.pre.writers stream) (t.post.writers stream) := by
  refine Machine.flatMap_part (fun t ht hlabel => ?_) fun _ _ _ _ => rfl
  rw [writers_idle (hof t ht) hlabel, hf]

omit [Ciborium τ] in
/-- No writer of a sound stream fails. -/
theorem writersPart_fails (hfails : ∀ t ∈ ts, ∀ i, t.input ≠ .writers stream (.fail i)) :
    ∀ t ∈ writersPart stream ts, ∀ i, t.input ≠ .fail i := by
  intro t ht i hinput
  obtain ⟨t', ht', hpart⟩ := List.mem_filterMap.mp ht
  obtain ⟨l, hlabel, rfl⟩ := Option.map_eq_some_iff.mp hpart
  rw [writersLabel] at hlabel
  split at hlabel
  · rename_i stream' input' hinput'
    split at hlabel
    · rename_i heq
      cases hlabel
      subst heq
      exact hfails t' ht' i (hinput'.trans (congrArg _ hinput))
    · cases hlabel
  all_goals cases hlabel

theorem legible_run {H : Framing.Header UInt8}
    (h : (networkMachine τ senders runtime).Run (.new settings) ts network)
    (hsound : ∀ t ∈ ts, Sound H stream t) : (network.writers stream).AllLegible H := by
  refine h.history (fun ts network => (∀ t ∈ ts, Sound H stream t) →
    (network.writers stream).AllLegible H) ?_ ?_ hsound
  · exact fun _ writer hwriter => absurd hwriter List.not_mem_nil
  · intro ts t _ _ _ hsound
    exact (hsound t (List.mem_append_right _ (List.mem_singleton_self t))).legible

omit [Ciborium τ] in
/-- What was seen of a stream, by direction. -/
theorem filterMap_see (stream : Nat) (ts : List (NetworkTransition τ)) :
    (ts.flatMap (see stream)).filterMap Fifo.Event.written =
        (ts.flatMap fun t => (locked stream t).map (t.post.writers stream).payloadOf) ∧
      (ts.flatMap (see stream)).filterMap Fifo.Event.read = ts.flatMap (got stream) := by
  rw [List.filterMap_flatMap, List.filterMap_flatMap]
  constructor
  · exact List.flatMap_congr fun t _ => (Fifo.filterMap_both _ _).1
  · exact List.flatMap_congr fun t _ => (Fifo.filterMap_both _ _).2

/-- What was pushed from a sound stream are the frames of the bytes that were taken from it. -/
theorem got_run (h : (networkMachine τ senders runtime).Run (.new settings) ts network)
    (hsender : senders stream = some sender)
    (hsound : ∀ t ∈ ts, Sound (frameHeader settings.bytes settings.order) stream t) :
    ts.flatMap (got stream) = (Framing.parse (frameHeader settings.bytes settings.order)
      (network.server.consumedAt stream)).frames := by
  refine h.history (fun ts network =>
    (∀ t ∈ ts, Sound (frameHeader settings.bytes settings.order) stream t) →
      ts.flatMap (got stream) = (Framing.parse (frameHeader settings.bytes settings.order)
        (network.server.consumedAt stream)).frames) ?_ ?_ hsound
  · intro _
    rw [show (new settings).server.consumedAt stream = [] from rfl,
      Framing.parse_short (s := []) (frameHeader settings.bytes settings.order).width_pos]
    rfl
  · intro ts t hrun ih hof hsound
    obtain ⟨hbefore, hlast⟩ := List.forall_mem_append.mp hsound
    have hlast := List.forall_mem_singleton.mp hlast
    obtain ⟨-, queue, -, -, hexplained⟩ :=
      (simulates settings senders runtime hsender).run (explained_start _ _ _) hrun hbefore
    obtain ⟨-, queue', -, -, hafter⟩ := explained_step rfl hsender hexplained hrun hof hlast
    have hguarded := guarded_run (writers_run (.snoc hrun hof) hsender)
    have hwhole := hafter.onTheWay.whole hguarded hlast.legible hafter.carries.consumed_begins
    rw [List.flatMap_append, List.flatMap_singleton, ih hbefore, frames_step rfl hrun hof hwhole]

/-- What was pushed for the client of a sound stream. -/
theorem pushedTo_run (h : (networkMachine τ senders runtime).Run (.new settings) ts network)
    (hsender : senders stream = some sender)
    (hsound : ∀ t ∈ ts, Sound (frameHeader settings.bytes settings.order) stream t) {uuid : Uuid}
    {kind : StreamKind} (hissued : (uuid, ⟨stream, kind⟩) ∈ network.server.issued) :
    TcpServer.pushedTo uuid (ts.flatMap fun t => t.output.pushed) =
      (Framing.parse (frameHeader settings.bytes settings.order)
        (network.server.consumedAt stream)).frames := by
  obtain ⟨-, queue, -, -, hexplained⟩ :=
    (simulates settings senders runtime hsender).run (explained_start _ _ _) h hsound
  have hserver := server_run h
  have hregistered := registered_run hserver
  have hknown := hregistered.known _ (List.mem_append_left _ (List.mem_map_of_mem hissued))
  have hpeer := List.getElem?_eq_getElem hknown
  have hwhole := hexplained.onTheWay.whole (guarded_run (writers_run h hsender))
    (legible_run h hsound) hexplained.carries.consumed_begins
  rw [TcpServer.consumedAt_eq hpeer] at hwhole ⊢
  rw [← pushes_serverPart h, (handsOver_run hserver).2.frames uuid _ _ hissued hpeer
    (Peer.whole_iff.mpr hwhole), Framing.feedAll_parse]

end TcpNetwork

/-! ## The connections are queues -/

section Results
variable {τ : Type} [UserMessages τ] [Ciborium τ]

/-- **A connection from a client to its server is a queue**, whatever goes on at the others. -/
theorem network_refines_fifo (settings : TcpSettingsServer) (senders : Nat → Option TcpSender)
    (runtime : Option Runtime) (ts : List (NetworkTransition τ)) (network : TcpNetwork)
    (h : (networkMachine τ senders runtime).Run (.new settings) ts network) (stream : Nat)
    (sender : TcpSender) (hsender : senders stream = some sender)
    (hsound : ∀ t ∈ ts,
      TcpNetwork.Sound (frameHeader settings.bytes settings.order) stream t) :
    ∃ us queue, (Fifo.machine (List UInt8)).Run [] us queue ∧
      us.flatMap Fifo.see = ts.flatMap (TcpNetwork.see stream) := by
  have hsim := TcpNetwork.simulates (τ := τ) settings senders runtime hsender
  obtain ⟨us, queue, hrun, hsee, -⟩ := hsim.run (TcpNetwork.explained_start _ _ _) h hsound
  exact ⟨us, queue, hrun, hsee⟩

/-- **Each message is delivered at most once, in the order of the locks, to the client's own
UUID.** What the server has not delivered is on the way; when nobody writes and all bytes were
taken, nothing is. -/
theorem network_delivers (settings : TcpSettingsServer) (senders : Nat → Option TcpSender)
    (runtime : Option Runtime) (ts : List (NetworkTransition τ)) (network : TcpNetwork)
    (h : (networkMachine τ senders runtime).Run (.new settings) ts network) (stream : Nat)
    (sender : TcpSender) (hsender : senders stream = some sender)
    (hsound : ∀ t ∈ ts,
      TcpNetwork.Sound (frameHeader settings.bytes settings.order) stream t) :
    (ts.flatMap (TcpNetwork.locked stream)).Nodup ∧
      (∀ i, i ∈ ts.flatMap (TcpNetwork.locked stream) ↔
        ∃ writer, (network.writers stream).writers[i]? = some writer ∧ writer.phase ≠ .locking) ∧
      ∀ uuid kind, (uuid, ⟨stream, kind⟩) ∈ network.server.issued →
        ∃ queue, (ts.flatMap (TcpNetwork.locked stream)).map (network.writers stream).payloadOf =
            TcpServer.pushedTo uuid (ts.flatMap fun t => t.output.pushed) ++ queue ∧
          (network.CaughtUp stream → queue = []) := by
  have hwriters := TcpNetwork.writers_run h hsender
  have hfails := TcpNetwork.writersPart_fails fun t ht => (hsound t ht).fails
  have hlocked : ((TcpNetwork.writersPart stream ts).flatMap fun t => t.pre.locks t.post) =
      ts.flatMap (TcpNetwork.locked stream) :=
    TcpNetwork.flatMap_writersPart h.forall_of (fun writers after => writers.locks after)
      TcpWriters.locks_self
  obtain ⟨hnodup, hmem⟩ := locks_run hwriters hfails
  rw [hlocked] at hnodup hmem
  refine ⟨hnodup, hmem, fun uuid kind hissued => ?_⟩
  obtain ⟨us, queue, hrun, hsee, hexplained⟩ :=
    (TcpNetwork.simulates settings senders runtime hsender).run
      (TcpNetwork.explained_start _ _ _) h hsound
  have hguarded := guarded_run hwriters
  refine ⟨queue, ?_, hexplained.complete hguarded (TcpNetwork.legible_run h hsound)⟩
  have hpayloads := (begun_run hwriters hfails).2
  rw [hlocked, TcpNetwork.flatMap_writersPart h.forall_of
    (fun writers after => (writers.locks after).map after.payloadOf)
    fun writers => by rw [TcpWriters.locks_self]; rfl] at hpayloads
  have hconserved := Fifo.conserves hrun
  obtain ⟨hwritten, hread⟩ := TcpNetwork.filterMap_see stream ts
  rw [hsee, hwritten, hread] at hconserved
  have hpushed : TcpServer.pushedTo uuid (ts.flatMap fun t => t.output.pushed) =
      ts.flatMap (TcpNetwork.got stream) := by
    rw [TcpNetwork.pushedTo_run h hsender hsound hissued, TcpNetwork.got_run h hsender hsound]
  rw [hpushed, ← hconserved]
  exact hpayloads.symm

end Results

namespace Sample

/-- Stream 0 is that of a `ClientTcp`. Behind the others there is anybody. -/
def senders (stream : Nat) : Option TcpSender :=
  if stream = 0 then some (.client connectedClient) else none

/-- A client sends two messages, and the second call takes the lock first. Its bytes come in two
pieces, and the client is authenticated between them. -/
def uplinkInputs : List (NetworkInput Sample) :=
  [.server .startRuntime, .server (.connect .stream), .server (.portOp (.checkClientsConnected 7)),
    .server (.portOp .checkNotAuthenticatedClients),
    .writers 0 (.sendMessage (.user .ticket) (42 : UInt8)),
    .writers 0 (.sendMessage (.user .ticket) (43 : UInt8))] ++
  List.replicate 9 (.writers 0 (.writer 1)) ++ [.arrive 0 3] ++
  List.replicate 6 (.server (.reader 0)) ++ [.server (.authenticateClient 7)] ++
  List.replicate 9 (.writers 0 (.writer 0)) ++ [.arrive 0 100] ++
  List.replicate 5 (.server (.reader 0)) ++ List.replicate 7 (.server (.reader 1))

def uplinkRun : List (NetworkTransition Sample) × TcpNetwork :=
  ((networkMachine Sample senders (some .new)).exec (.new .default) uplinkInputs).getD
    ([], .new .default)

theorem run_uplinkRun : (networkMachine Sample senders (some .new)).Run (.new .default)
    uplinkRun.1 uplinkRun.2 := by
  have hexec : (networkMachine Sample senders (some .new)).exec (.new .default) uplinkInputs =
    some uplinkRun := rfl
  exact .of_exec hexec

theorem sound_uplinkRun : ∀ t ∈ uplinkRun.1,
    TcpNetwork.Sound (frameHeader .u32 .littleEndian) 0 t := by
  have hall : uplinkRun.1.all (fun t => (match t.input with
    | .writers _ (.fail _) => false
    | _ => true) && (t.post.writers 0).writers.all short) = true := rfl
  intro t ht
  have ht := List.all_eq_true.mp hall t ht
  rw [Bool.and_eq_true] at ht
  refine ⟨fun i hinput => ?_, fun writer hwriter => ?_⟩
  · have hfails := ht.1
    rw [hinput] at hfails
    cases hfails
  · exact legible_of_short (List.all_eq_true.mp ht.2 writer hwriter)

end Sample

theorem network_refines_fifo_uplinkRun :
    ∃ us queue, (Fifo.machine (List UInt8)).Run [] us queue ∧
      us.flatMap Fifo.see = Sample.uplinkRun.1.flatMap (TcpNetwork.see 0) :=
  network_refines_fifo .default Sample.senders (some .new) _ _ Sample.run_uplinkRun 0
    (.client connectedClient) rfl Sample.sound_uplinkRun

theorem network_delivers_uplinkRun :
    TcpServer.pushedTo 7 (Sample.uplinkRun.1.flatMap fun t => t.output.pushed) =
      [1, 0].map (Sample.uplinkRun.2.writers 0).payloadOf := by
  obtain ⟨-, -, hdelivers⟩ := network_delivers .default Sample.senders (some .new) _ _
    Sample.run_uplinkRun 0 (.client connectedClient) rfl Sample.sound_uplinkRun
  obtain ⟨queue, hqueue, hcaught⟩ := hdelivers 7 .stream (by decide)
  have hempty := hcaught ⟨rfl, rfl, _, rfl, rfl, rfl⟩
  rw [hempty, List.append_nil] at hqueue
  exact hqueue.symm

end Inator
