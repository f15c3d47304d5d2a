import Inator.Ports.Tcp.Readers

/-! # What a `ServerTcp` knows of its clients

`Registered` is the invariant that the results about readers share: a UUID stands for one
stream, and neither a map entry, nor a reader, nor a notification names a client that
`check_clients_connected` has not given out. -/

namespace Inator

theorem Reader.spawn_eq_some {task : Task} {reader : Reader} :
    Reader.spawn task = some reader ↔ reader.phase = .locking ∧
      task = .read reader.stream (some (reader.bytes, reader.order)) reader.target
        reader.isAuthenticated := by
  obtain ⟨stream, bytes, order, target, isAuthenticated, phase⟩ := reader
  cases task with
  | read stream' framing target' isAuthenticated' =>
    cases framing with
    | none => simp [spawn]
    | some framing =>
      obtain ⟨bytes', order'⟩ := framing
      simp only [spawn, Option.some.injEq, Reader.mk.injEq, Task.read.injEq, Prod.mk.injEq]
      constructor
      · rintro ⟨rfl, rfl, rfl, rfl, rfl, rfl⟩
        exact ⟨rfl, rfl, ⟨rfl, rfl⟩, rfl, rfl⟩
      · rintro ⟨rfl, rfl, ⟨rfl, rfl⟩, rfl, rfl⟩
        exact ⟨rfl, rfl, rfl, rfl, rfl, rfl⟩
  | bind | accept | write => simp [spawn]

namespace TcpServer
variable {server after : TcpServer} {input : TcpInput} {output : TcpOutput}

/-! ## What a step does -/

/-- The server after its first waiting stream was given out. -/
def giveOut (server : TcpServer) (newUuid : Uuid) (stream : Stream) (rest : List Stream) :
    TcpServer :=
  { server with
    port := { server.port with
      clientConnected := rest
      notAuthenticatedListening :=
        server.port.notAuthenticatedListening.insert newUuid ⟨stream, false⟩ }
    issued := (newUuid, stream) :: server.issued }

/-- The steps of a server and its readers, one by one. -/
inductive Change (server : TcpServer) (input : TcpInput) : TcpServer → TcpOutput → Prop
  | startRuntime : Change server input { server with runtime := some .new } quiet
  | ran {op : PortOp} (asked : input = .portOp op) (admits : server.admits op = none) :
      Change server input (server.operated (op.run server.port server.runtime))
        ⟨[], server.returns op⟩
  | admitted {newUuid : Uuid} {stream : Stream} {rest : List Stream}
      (fresh : newUuid ∉ server.issued.map Prod.fst)
      (queue : server.port.clientConnected = stream :: rest) :
      Change server input (server.giveOut newUuid stream rest) quiet
  | authenticated {uuid : Uuid} (asked : input = .authenticateClient uuid) :
      Change server input
        (server.operated (server.port.authenticateClient uuid server.runtime)) quiet
  | connected {kind : StreamKind} :
      Change server input (server.accept kind) quiet
  | peer {stream : Nat} {before peer : Peer} (lookup : server.peers[stream]? = some before)
      (opened : before.closed = false) (consumed : peer.consumed = before.consumed)
      (holder : peer.holder = before.holder) :
      Change server input { server with peers := server.peers.set stream peer } quiet
  | reader {i : Nat} {reader : Reader} {peer : Peer} {moved : ReaderStep}
      (lookup : server.readers[i]? = some reader)
      (stream : server.peers[reader.stream.id]? = some peer)
      (moves : reader.Moves i peer server.port server.channelHolder moved) :
      Change server input (server.stepped i reader moved) ⟨moved.pushed, []⟩

theorem modifyPeer_change {stream : Nat} {f : Peer → Peer}
    (h : server.modifyPeer stream f = some (after, output))
    (hconsumed : ∀ peer, (f peer).consumed = peer.consumed)
    (hholder : ∀ peer, (f peer).holder = peer.holder) : Change server input after output := by
  unfold modifyPeer at h
  split at h
  · cases h
  · rename_i peer hlookup
    split at h
    · cases h
    · rename_i hopened
      cases h
      exact .peer hlookup (Bool.eq_false_iff.mpr hopened) (hconsumed peer) (hholder peer)

theorem admits_eq (server : TcpServer) (op : PortOp) :
    server.admits op = server.port.admits op := by
  cases op <;> rfl

theorem admits_eq_none {op : PortOp} :
    server.admits op = none ↔
      ∀ newUuid, op = .checkClientsConnected newUuid → server.port.clientConnected = [] := by
  rw [admits_eq, ServerPort.admits_eq_none]

theorem portOp_change {op : PortOp} (h : server.portOp op = some (after, output)) :
    Change server (.portOp op) after output := by
  unfold portOp at h
  split at h
  · cases h
  · rename_i hfresh
    cases h
    cases hadmits : server.admits op with
    | none => exact .ran rfl hadmits
    | some client =>
      obtain ⟨rfl, rest, hqueue⟩ := ServerPort.admits_eq_some.mp (server.admits_eq op ▸ hadmits)
      have hchange : Change server (.portOp (.checkClientsConnected client.1)) _ quiet :=
        .admitted (fun hissued => hfresh ⟨client, hadmits, hissued⟩) hqueue
      simp only [operated, PortOp.run, ServerPort.checkClientsConnected, hqueue,
        List.filterMap_nil, List.append_nil]
      exact hchange

/-- What a step of task `i` does. -/
theorem readerStep_spec {i : Nat} (h : server.readerStep i = some (after, output)) :
    ∃ reader peer moved, server.readers[i]? = some reader ∧
      server.peers[reader.stream.id]? = some peer ∧
        reader.Moves i peer server.port server.channelHolder moved ∧
          after = server.stepped i reader moved ∧ output = ⟨moved.pushed, []⟩ := by
  simp only [readerStep] at h
  split at h
  · cases h
  · rename_i reader hreader
    split at h
    · cases h
    · rename_i peer hpeer
      obtain ⟨moved, hmoved, heq⟩ := Option.map_eq_some_iff.mp h
      cases heq
      exact ⟨reader, peer, moved, hreader, hpeer, Reader.run_moves hmoved, rfl, rfl⟩

/-- **What a step does.** -/
theorem step_change (h : server.step input = some (after, output)) :
    Change server input after output := by
  cases input with
  | startRuntime =>
    cases h
    exact .startRuntime
  | portOp op =>
    simp only [step] at h
    split at h
    · cases h
    · exact portOp_change h
  | authenticateClient uuid =>
    cases h
    exact .authenticated rfl
  | connect kind =>
    cases h
    exact .connected
  | send stream bytes => exact modifyPeer_change h (fun _ => rfl) fun _ => rfl
  | close stream => exact modifyPeer_change h (fun _ => rfl) fun _ => rfl
  | fail stream => exact modifyPeer_change h (fun _ => rfl) fun _ => rfl
  | reader i =>
    obtain ⟨reader, peer, moved, hreader, hpeer, hmoves, rfl, rfl⟩ := readerStep_spec h
    exact .reader hreader hpeer hmoves

end TcpServer

/-- The reader is at the channel of the clients that were authenticated. -/
def Reader.AsksChannel (reader : Reader) : Prop :=
  reader.phase = .lockingChannel ∨ reader.phase = .draining

/-- A reader changes its port by what a task of its kind may do, and in no other way. -/
theorem Reader.Moves.receives {i : Nat} {reader : Reader} {peer : Peer} {port : ServerPort}
    {channelHolder : Option Nat} {moved : ReaderStep}
    (h : reader.Moves i peer port channelHolder moved)
    (hasks : reader.AsksChannel → reader.isAuthenticated = false) :
    moved.port = port ∨ ∃ event : TaskEvent, moved.port = port.receive event ∧
      event.By (.read reader.stream (some (reader.bytes, reader.order)) reader.target
        reader.isAuthenticated) := by
  cases h with
  | popped phase | handedOver phase =>
    exact .inr ⟨.popClientAuthenticated, rfl, hasks (.inr phase)⟩
  | finished => exact .inr ⟨.messageReceived _ _, rfl, rfl⟩
  | disconnected => exact .inr ⟨.clientDisconnected _ _, rfl, rfl, rfl⟩
  | locked | lockedChannel | drained | took | panicked => exact .inl rfl

/-- No reader changes whom its port holds. -/
theorem Reader.Moves.maps {i : Nat} {reader : Reader} {peer : Peer} {port : ServerPort}
    {channelHolder : Option Nat} {moved : ReaderStep}
    (h : reader.Moves i peer port channelHolder moved) :
    moved.port.listeningClients = port.listeningClients ∧
      moved.port.notAuthenticatedListening = port.notAuthenticatedListening := by
  cases h with
  | popped | handedOver | finished | disconnected =>
    exact ⟨port.receive_listeningClients _, port.receive_notAuthenticatedListening _⟩
  | locked | lockedChannel | drained | took | panicked => exact ⟨rfl, rfl⟩

/-- Only a reader that is not authenticated comes to the channel. -/
theorem Reader.Moves.asks {i : Nat} {reader : Reader} {peer : Peer} {port : ServerPort}
    {channelHolder : Option Nat} {moved : ReaderStep}
    (h : reader.Moves i peer port channelHolder moved)
    (hasks : reader.AsksChannel → reader.isAuthenticated = false)
    (hmoved : Reader.AsksChannel { reader with phase := moved.phase }) :
    reader.isAuthenticated = false := by
  have hstart : Reader.AsksChannel { reader with phase := reader.loopStart } →
      reader.isAuthenticated = false := by
    unfold Reader.AsksChannel Reader.loopStart
    cases reader.isAuthenticated with
    | false => exact fun _ => rfl
    | true =>
      rintro (hphase | hphase)
      · cases hphase
      · cases hphase
  have hno : ∀ {phase}, phase ≠ .lockingChannel → phase ≠ .draining →
      ¬Reader.AsksChannel { reader with phase := phase } :=
    fun hlocking hdraining hphase => hphase.elim hlocking hdraining
  cases h with
  | locked | finished => exact hstart hmoved
  | lockedChannel phase => exact hasks (.inl phase)
  | popped phase => exact hasks (.inr phase)
  | drained | took | handedOver | panicked | disconnected => exact absurd hmoved (hno nofun nofun)

/-- What a reader writes to the port: it announces nobody but its own client. -/
theorem ServerPort.receive_reader {port : ServerPort} {event : TaskEvent} {stream : Stream}
    {framing : StreamFraming} {target : Uuid} {isAuthenticated : Bool}
    (h : event.By (.read stream framing target isAuthenticated)) :
    (port.receive event).clientConnected = port.clientConnected ∧
      ∀ notification ∈ (port.receive event).clientDisconnected,
        notification ∈ port.clientDisconnected ∨ notification = (target, isAuthenticated) := by
  cases event with
  | messageReceived | popClientAuthenticated => exact ⟨rfl, fun _ hn => .inl hn⟩
  | clientDisconnected target' isAuthenticated' =>
    obtain ⟨rfl, rfl⟩ := h
    refine ⟨rfl, fun notification hn => ?_⟩
    exact (List.mem_append.mp hn).imp_right List.mem_singleton.mp
  | portConnected | clientConnected | connectionDown => cases h

/-! ## The clients of a port -/

/-- An entry of one of the two maps. -/
def ServerPort.Entry (port : ServerPort) (uuid : Uuid) (infos : ListeningInfos) : Prop :=
  port.notAuthenticatedListening.lookup uuid = some infos ∨
    port.listeningClients.lookup uuid = some infos

/-- The two maps have no client in common. -/
def ServerPort.Apart (port : ServerPort) : Prop :=
  ∀ uuid ∈ port.listeningClients, uuid ∉ port.notAuthenticatedListening

/-- What an operation that admits no client keeps: it adds no entry and reads no other stream. -/
structure ServerPort.Keeps (port after : ServerPort) (tasks : List Task) : Prop where
  settings : after.settings = port.settings
  clientConnected : after.clientConnected = port.clientConnected
  clientDisconnected : after.clientDisconnected ⊆ port.clientDisconnected
  entry : ∀ uuid infos, after.Entry uuid infos →
    ∃ infos', port.Entry uuid infos' ∧ infos'.readWriteType = infos.readWriteType
  apart : port.Apart → after.Apart
  reads : ∀ stream framing target isAuthenticated,
    .read stream framing target isAuthenticated ∈ tasks → framing = port.settings.framing ∧
      ∃ infos, infos.readWriteType = stream ∧ port.Entry target infos

theorem PortOp.run_keeps {port : ServerPort} {runtime : Option Runtime} {op : PortOp}
    (hop : ∀ newUuid, op = .checkClientsConnected newUuid → port.clientConnected = []) :
    port.Keeps (op.run port runtime).1 (op.run port runtime).2 := by
  have heffect := op.run_effect port runtime
  have hreads : ∀ stream framing target isAuthenticated,
      .read stream framing target isAuthenticated ∈ (op.run port runtime).2 →
      framing = port.settings.framing ∧
        ∃ infos, infos.readWriteType = stream ∧ port.Entry target infos := by
    intro stream framing target isAuthenticated htask
    cases PortOp.run_spawns htask with
    | read entry => exact ⟨rfl, _, rfl, entry⟩
  generalize op.run port runtime = result at heffect hreads
  obtain ⟨after, tasks⟩ := result
  cases heffect with
  | quiet settings connected disconnected _ listening waiting =>
    refine ⟨settings, connected, disconnected ▸ List.Subset.refl _, ?_, ?_, hreads⟩
    · intro uuid infos hentry
      rw [ServerPort.Entry, listening, waiting] at hentry
      exact ⟨infos, hentry, rfl⟩
    · intro hapart
      rwa [ServerPort.Apart, listening, waiting]
  | marked =>
    refine ⟨rfl, rfl, List.Subset.refl _, ?_, ?_, hreads⟩
    · rintro uuid infos (hwaiting | hlistening)
      · rw [AssocMap.lookup_mapVals] at hwaiting
        obtain ⟨infos', hinfos', rfl⟩ := Option.map_eq_some_iff.mp hwaiting
        exact ⟨infos', .inl hinfos', rfl⟩
      · exact ⟨infos, .inr hlistening, rfl⟩
    · intro hapart uuid hlistening hwaiting
      exact hapart uuid hlistening (AssocMap.mem_mapVals.mp hwaiting)
  | disconnected popped =>
    refine ⟨rfl, rfl, popped ▸ List.subset_cons_self _ _, ?_, ?_, hreads⟩
    · intro uuid infos hentry
      exact ⟨infos, hentry.imp_right fun hl => (AssocMap.lookup_of_erase hl).2, rfl⟩
    · intro hapart uuid hlistening
      exact hapart uuid (AList.mem_erase.mp hlistening).2
  | disconnectedWaiting popped =>
    refine ⟨rfl, rfl, popped ▸ List.subset_cons_self _ _, ?_, ?_, hreads⟩
    · intro uuid infos hentry
      exact ⟨infos, hentry.imp_left fun hl => (AssocMap.lookup_of_erase hl).2, rfl⟩
    · intro hapart uuid hlistening hwaiting
      exact hapart uuid hlistening (AList.mem_erase.mp hwaiting).2
  | admitted popped =>
    rw [hop _ rfl] at popped
    cases popped

theorem ServerPort.authenticateClient_keeps (port : ServerPort) (runtime : Option Runtime)
    (target : Uuid) : port.Keeps (port.authenticateClient target runtime).1
      (port.authenticateClient target runtime).2 := by
  cases hinfos : port.notAuthenticatedListening.lookup target with
  | none =>
    rw [authenticateClient_none hinfos]
    exact ⟨rfl, rfl, List.Subset.refl _, fun _ infos hentry => ⟨infos, hentry, rfl⟩, id,
      fun _ _ _ _ htask => absurd htask List.not_mem_nil⟩
  | some infos =>
    rw [authenticateClient_some hinfos]
    refine ⟨rfl, rfl, List.Subset.refl _, ?_, ?_, ?_⟩
    · rintro uuid infos' (hwaiting | hlistening)
      · exact ⟨infos', .inl (AssocMap.lookup_of_erase hwaiting).2, rfl⟩
      · rcases AssocMap.lookup_of_insert hlistening with ⟨rfl, rfl⟩ | hlistening
        · exact ⟨infos, .inl hinfos, rfl⟩
        · exact ⟨infos', .inr hlistening, rfl⟩
    · intro hapart uuid hlistening hwaiting
      obtain ⟨hother, hwaiting⟩ := AList.mem_erase.mp hwaiting
      rcases (AList.mem_insert _).mp hlistening with rfl | hlistening
      · exact hother rfl
      · exact hapart uuid hlistening hwaiting
    · intro stream framing uuid isAuthenticated htask
      cases runtime with
      | none => cases htask
      | some runtime =>
        cases List.mem_singleton.mp htask
        exact ⟨rfl, infos, rfl, .inl hinfos⟩

/-- An operation that admits no client makes none unauthenticated. -/
theorem PortOp.waiting_run {port : ServerPort} {runtime : Option Runtime} {op : PortOp}
    {uuid : Uuid}
    (hop : ∀ newUuid, op = .checkClientsConnected newUuid → port.clientConnected = [])
    (h : uuid ∈ (op.run port runtime).1.notAuthenticatedListening) :
    uuid ∈ port.notAuthenticatedListening := by
  have heffect := op.run_effect port runtime
  generalize (op.run port runtime).1 = after at heffect h
  cases heffect with
  | quiet _ _ _ _ _ waiting => exact waiting ▸ h
  | marked => exact AssocMap.mem_mapVals.mp h
  | disconnected => exact h
  | disconnectedWaiting => exact (AList.mem_erase.mp h).2
  | admitted popped =>
    rw [hop _ rfl] at popped
    cases popped

/-- Nor does it change the entry of one, if it marks none. -/
theorem PortOp.lookup_run {port : ServerPort} {runtime : Option Runtime} {op : PortOp}
    {uuid : Uuid} {infos : ListeningInfos}
    (hadmits : ∀ newUuid, op = .checkClientsConnected newUuid → port.clientConnected = [])
    (hop : op ≠ .checkNotAuthenticatedClients)
    (h : (op.run port runtime).1.notAuthenticatedListening.lookup uuid = some infos) :
    port.notAuthenticatedListening.lookup uuid = some infos := by
  have heffect := op.run_effect port runtime
  generalize (op.run port runtime).1 = after at heffect h
  cases heffect with
  | quiet _ _ _ _ _ waiting => exact waiting ▸ h
  | marked => exact absurd rfl hop
  | disconnected => exact h
  | disconnectedWaiting => exact (AssocMap.lookup_of_erase h).2
  | admitted popped =>
    rw [hadmits _ rfl] at popped
    cases popped

theorem ServerPort.lookup_authenticateClient {port : ServerPort} {runtime : Option Runtime}
    {target uuid : Uuid} {infos : ListeningInfos}
    (h : (port.authenticateClient target runtime).1.notAuthenticatedListening.lookup uuid =
      some infos) : port.notAuthenticatedListening.lookup uuid = some infos := by
  cases hlookup : port.notAuthenticatedListening.lookup target with
  | none =>
    rw [authenticateClient_none hlookup] at h
    exact h
  | some infos =>
    rw [authenticateClient_some hlookup] at h
    exact (AssocMap.lookup_of_erase h).2

theorem ServerPort.waiting_authenticateClient {port : ServerPort} {runtime : Option Runtime}
    {target uuid : Uuid}
    (h : uuid ∈ (port.authenticateClient target runtime).1.notAuthenticatedListening) :
    uuid ∈ port.notAuthenticatedListening := by
  obtain ⟨infos, hinfos⟩ := AssocMap.lookup_of_mem h
  exact AssocMap.mem_of_lookup (lookup_authenticateClient hinfos)

namespace TcpServer
variable {settings : TcpSettingsServer} {server after : TcpServer} {output : TcpOutput}
  {input : TcpInput}

/-- The identities of the streams that clients have, and of those that wait for one. -/
def streams (server : TcpServer) : List Nat :=
  server.issued.map (·.2.id) ++ server.port.clientConnected.map (·.id)

/-- A UUID stands for one stream, and only UUIDs that were given out are named. -/
structure Registered (settings : TcpSettingsServer) (server : TcpServer) : Prop where
  configured : server.port.settings = .tcp settings
  uuids : (server.issued.map Prod.fst).Nodup
  streams : server.streams.Nodup
  known : ∀ id ∈ server.streams, id < server.peers.length
  entries : ∀ uuid infos, server.port.Entry uuid infos →
    (uuid, infos.readWriteType) ∈ server.issued
  apart : server.port.Apart
  readers : ∀ reader ∈ server.readers, (reader.target, reader.stream) ∈ server.issued ∧
    reader.bytes = settings.bytes ∧ reader.order = settings.order
  asks : ∀ reader ∈ server.readers, reader.AsksChannel → reader.isAuthenticated = false
  notified : ∀ notification ∈ server.port.clientDisconnected,
    notification.1 ∈ server.issued.map Prod.fst

namespace Registered

theorem start : Registered settings (new settings) where
  configured := rfl
  uuids := List.nodup_nil
  streams := List.nodup_nil
  known id hid := absurd hid List.not_mem_nil
  entries := by
    rintro uuid infos (hwaiting | hlistening)
    · cases hwaiting
    · cases hlistening
  apart := fun uuid huuid => absurd huuid (AList.notMem_empty uuid)
  readers reader hreader := absurd hreader List.not_mem_nil
  asks reader hreader := absurd hreader List.not_mem_nil
  notified notification hn := absurd hn List.not_mem_nil

/-- The invariant after an operation that admits no client. -/
theorem operated (h : server.Registered settings) {result : ServerPort × List Task}
    (hkeeps : server.port.Keeps result.1 result.2) :
    (server.operated result).Registered settings where
  configured := hkeeps.settings.trans h.configured
  uuids := h.uuids
  streams := by
    unfold TcpServer.streams TcpServer.operated
    rw [hkeeps.clientConnected]
    exact h.streams
  known := by
    unfold TcpServer.streams TcpServer.operated
    rw [hkeeps.clientConnected]
    exact h.known
  entries uuid infos hentry := by
    obtain ⟨infos', hentry', hstream⟩ := hkeeps.entry uuid infos hentry
    rw [← hstream]
    exact h.entries uuid infos' hentry'
  apart := hkeeps.apart h.apart
  readers reader hreader := by
    rcases List.mem_append.mp hreader with hreader | hreader
    · exact h.readers reader hreader
    · obtain ⟨task, htask, hspawn⟩ := List.mem_filterMap.mp hreader
      obtain ⟨-, rfl⟩ := Reader.spawn_eq_some.mp hspawn
      obtain ⟨hframing, infos, hstream, hentry⟩ := hkeeps.reads _ _ _ _ htask
      rw [h.configured] at hframing
      obtain ⟨hbytes, horder⟩ := Prod.mk.inj (Option.some.inj hframing)
      rw [← hstream]
      exact ⟨h.entries _ infos hentry, hbytes, horder⟩
  asks reader hreader hasks := by
    rcases List.mem_append.mp hreader with hreader | hreader
    · exact h.asks reader hreader hasks
    · obtain ⟨task, -, hspawn⟩ := List.mem_filterMap.mp hreader
      obtain ⟨hphase, -⟩ := Reader.spawn_eq_some.mp hspawn
      rw [Reader.AsksChannel, hphase] at hasks
      rcases hasks with hasks | hasks <;> cases hasks
  notified notification hn := h.notified notification (hkeeps.clientDisconnected hn)

theorem giveOut (h : server.Registered settings) {newUuid : Uuid} {stream : Stream}
    {rest : List Stream} (hfresh : newUuid ∉ server.issued.map Prod.fst)
    (hqueue : server.port.clientConnected = stream :: rest) :
    (server.giveOut newUuid stream rest).Registered settings := by
  have hperm : (server.giveOut newUuid stream rest).streams.Perm server.streams := by
    unfold TcpServer.streams
    rw [hqueue]
    exact List.perm_middle.symm
  refine ⟨h.configured, List.nodup_cons.mpr ⟨hfresh, h.uuids⟩, hperm.nodup_iff.mpr h.streams, ?_,
    ?_, ?_, ?_, h.asks, ?_⟩
  · intro id hid
    exact h.known id (hperm.mem_iff.mp hid)
  · rintro uuid infos (hwaiting | hlistening)
    · rcases AssocMap.lookup_of_insert hwaiting with ⟨rfl, rfl⟩ | hwaiting
      · exact List.mem_cons_self
      · exact List.mem_cons_of_mem _ (h.entries uuid infos (.inl hwaiting))
    · exact List.mem_cons_of_mem _ (h.entries uuid infos (.inr hlistening))
  · intro uuid hlistening hwaiting
    rcases (AList.mem_insert _).mp hwaiting with rfl | hwaiting
    · obtain ⟨infos, hinfos⟩ := AssocMap.lookup_of_mem hlistening
      exact hfresh (List.mem_map_of_mem (h.entries _ infos (.inr hinfos)))
    · exact h.apart uuid hlistening hwaiting
  · intro reader hreader
    exact (h.readers reader hreader).imp_left (List.mem_cons_of_mem _)
  · intro notification hn
    exact List.mem_cons_of_mem _ (h.notified notification hn)

theorem accept (h : server.Registered settings) (kind : StreamKind) :
    (server.accept kind).Registered settings := by
  have hstreams : (server.accept kind).streams = server.streams ++ [server.peers.length] := by
    simp only [TcpServer.streams, TcpServer.accept, ServerPort.receive, List.map_append,
      List.map_cons, List.map_nil, List.append_assoc]
  refine ⟨h.configured, h.uuids, ?_, ?_, h.entries, h.apart, h.readers, h.asks, h.notified⟩
  · rw [hstreams]
    refine List.nodup_append.mpr ⟨h.streams, List.nodup_singleton _, ?_⟩
    rintro id hid new hnew rfl
    cases List.mem_singleton.mp hnew
    exact absurd (h.known _ hid) (Nat.lt_irrefl _)
  · rw [hstreams]
    intro id hid
    have hlength : (server.accept kind).peers.length = server.peers.length + 1 :=
      List.length_append
    rw [hlength]
    rcases List.mem_append.mp hid with hid | hid
    · exact (h.known id hid).trans (Nat.lt_succ_self _)
    · rw [List.mem_singleton.mp hid]
      exact Nat.lt_succ_self _

theorem stepped (h : server.Registered settings) {i : Nat} {reader : Reader} {peer : Peer}
    {moved : ReaderStep} (hreader : server.readers[i]? = some reader)
    (hmoves : reader.Moves i peer server.port server.channelHolder moved) :
    (server.stepped i reader moved).Registered settings := by
  have hmem := List.mem_of_getElem? hreader
  have hasks := h.asks reader hmem
  obtain ⟨hissued, hframing⟩ := h.readers reader hmem
  have hset : ∀ reader' ∈ (server.stepped i reader moved).readers,
      reader' ∈ server.readers ∨ reader' = { reader with phase := moved.phase } :=
    fun reader' hreader' => List.mem_or_eq_of_mem_set hreader'
  have hreaders : ∀ reader' ∈ (server.stepped i reader moved).readers,
      (reader'.target, reader'.stream) ∈ server.issued ∧ reader'.bytes = settings.bytes ∧
        reader'.order = settings.order := by
    intro reader' hreader'
    rcases hset reader' hreader' with hold | rfl
    · exact h.readers reader' hold
    · exact ⟨hissued, hframing⟩
  have hasks' : ∀ reader' ∈ (server.stepped i reader moved).readers,
      reader'.AsksChannel → reader'.isAuthenticated = false := by
    intro reader' hreader' hasks'
    rcases hset reader' hreader' with hold | rfl
    · exact h.asks reader' hold hasks'
    · exact hmoves.asks hasks hasks'
  have hlength : (server.stepped i reader moved).peers.length = server.peers.length :=
    List.length_set
  obtain ⟨hlistening, hwaiting⟩ := hmoves.maps
  obtain ⟨hconfigured, hconnected, hnotified⟩ :
      moved.port.settings = server.port.settings ∧
        moved.port.clientConnected = server.port.clientConnected ∧
        ∀ notification ∈ moved.port.clientDisconnected,
          notification ∈ server.port.clientDisconnected ∨
            notification = (reader.target, reader.isAuthenticated) := by
    rcases hmoves.receives hasks with hport | ⟨event, hport, hby⟩
    · rw [hport]
      exact ⟨rfl, rfl, fun _ hn => .inl hn⟩
    · obtain ⟨hconnected, hnotified⟩ := server.port.receive_reader hby
      rw [hport]
      exact ⟨server.port.receive_settings event, hconnected, hnotified⟩
  have hstreams : (server.stepped i reader moved).streams = server.streams := by
    unfold TcpServer.streams TcpServer.stepped
    rw [hconnected]
  refine ⟨hconfigured.trans h.configured, h.uuids, ?_, ?_, ?_, ?_, hreaders, hasks', ?_⟩
  · rw [hstreams]
    exact h.streams
  · rw [hstreams, hlength]
    exact h.known
  · intro uuid infos hentry
    rw [ServerPort.Entry, TcpServer.stepped, hlistening, hwaiting] at hentry
    exact h.entries uuid infos hentry
  · rw [ServerPort.Apart, TcpServer.stepped, hlistening, hwaiting]
    exact h.apart
  · intro notification hn
    rcases hnotified notification hn with hold | rfl
    · exact h.notified notification hold
    · exact List.mem_map_of_mem hissued

/-- **Every step keeps the register.** -/
theorem step (h : server.Registered settings) (hchange : server.Change input after output) :
    after.Registered settings := by
  cases hchange with
  | startRuntime =>
    exact ⟨h.configured, h.uuids, h.streams, h.known, h.entries, h.apart, h.readers, h.asks,
      h.notified⟩
  | ran asked admits => exact h.operated (PortOp.run_keeps (admits_eq_none.mp admits))
  | admitted fresh queue => exact h.giveOut fresh queue
  | authenticated => exact h.operated (server.port.authenticateClient_keeps _ _)
  | connected => exact h.accept _
  | peer =>
    refine ⟨h.configured, h.uuids, h.streams, ?_, h.entries, h.apart, h.readers, h.asks,
      h.notified⟩
    intro id hid
    exact (h.known id hid).trans_eq List.length_set.symm
  | reader lookup _ moves => exact h.stepped lookup moves

end Registered

end TcpServer

/-- A step of a server with its readers, with the states on both sides. -/
abbrev TcpTransition := Machine.Transition TcpServer TcpInput TcpOutput

theorem registered_run {settings : TcpSettingsServer} {ts : List TcpTransition}
    {server : TcpServer} (h : tcpMachine.Run (.new settings) ts server) :
    server.Registered settings :=
  h.invariant (fun server => server.Registered settings) .start
    fun _ hregistered hof => hregistered.step (TcpServer.step_change hof)

end Inator
