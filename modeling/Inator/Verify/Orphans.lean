import Inator.Verify.HandOver

/-! # No client without a task

A client leaves a map of a `ServerTcp` when a notification with the status of that map is taken
up, and only the reader that was started with that status sends it. `Attended` says that this
reader is on its way, or its notification in the queue, for each client that one was started
for. A reader that returns without a notification has found its client in the channel: the client
is in the other map then, with a reader of its own. -/

namespace Inator
open TcpServer

/-- There is a task that will report the client with this status, or it has done so. -/
def TcpServer.Tends (server : TcpServer) (uuid : Uuid) (isAuthenticated : Bool) : Prop :=
  (∃ reader ∈ server.readers, reader.target = uuid ∧ reader.isAuthenticated = isAuthenticated ∧
    reader.phase ≠ .returned) ∨
  (uuid, isAuthenticated) ∈ server.port.clientDisconnected

/-- No header on the stream has stated a size that is refused. -/
def TcpServer.Sizes (server : TcpServer) (H : Framing.Header UInt8) (stream : Stream) : Prop :=
  ∀ peer, server.peers[stream.id]? = some peer → (Framing.parse H peer.consumed).ending ≠ .refused

/-! ## One step of a reader -/

namespace Reader.Moves
variable {H : Framing.Header UInt8} {i : Nat} {reader : Reader} {peer : Peer} {port : ServerPort}
  {channelHolder : Option Nat} {moved : ReaderStep}

/-- A notification is never taken back. -/
theorem clientDisconnected (h : reader.Moves i peer port channelHolder moved) :
    port.clientDisconnected ⊆ moved.port.clientDisconnected := by
  cases h with
  | disconnected => exact List.subset_append_left _ _
  | _ => exact List.Subset.refl _

/-- **How a reader ends.** It returns with a notification, or with its client in the channel. -/
theorem ends (h : reader.Moves i peer port channelHolder moved)
    (hframing : frameHeader reader.bytes reader.order = H)
    (hcut : peer.Whole H →
      peer.Dead ∨ (Framing.feedAll H .start peer.consumed).1 = reader.phase.state)
    (hwhole : moved.peer.Whole H) :
    moved.phase ≠ .returned ∨
      (reader.phase = .draining ∧ reader.target ∈ port.clientAuthenticated) ∨
      (reader.target, reader.isAuthenticated) ∈ moved.port.clientDisconnected := by
  have hstart : reader.loopStart ≠ .returned := by
    unfold loopStart
    cases reader.isAuthenticated <;> exact nofun
  cases h with
  | locked | finished => exact .inl hstart
  | lockedChannel | drained | popped | took => exact .inl nofun
  | handedOver phase queue => exact .inr (.inl ⟨phase, queue ▸ List.mem_cons_self⟩)
  | disconnected => exact .inr (.inr (List.mem_append_right _ List.mem_cons_self))
  | panicked phase arrived fed =>
    -- the size that is refused is in the bytes that were taken
    refine absurd ?_ hwhole
    rw [Framing.feedAll_snoc]
    by_cases hbefore : peer.Whole H
    · rcases hcut hbefore with ⟨-, hempty⟩ | hstate
      · rw [arrived] at hempty
        cases hempty
      · rw [hstate, phase, ReaderPhase.state, ← hframing, fed]
    · rw [not_not.mp hbefore]
      rfl

end Reader.Moves

/-! ## What a step does to the clients -/

namespace TcpServer
variable {settings : TcpSettingsServer} {server after : TcpServer} {input : TcpInput}
  {output : TcpOutput} {uuid : Uuid} {isAuthenticated : Bool}

/-- A client that was given out is never among the unauthenticated clients again. -/
theorem Change.waiting (h : server.Change input after output)
    (hwaiting : uuid ∈ after.port.notAuthenticatedListening) :
    uuid ∈ server.port.notAuthenticatedListening ∨ uuid ∉ server.issued.map Prod.fst := by
  cases h with
  | startRuntime | connected | peer => exact .inl hwaiting
  | ran _ admits => exact .inl (PortOp.waiting_run (admits_eq_none.mp admits) hwaiting)
  | @admitted newUuid stream rest fresh queue =>
    rcases (AList.mem_insert _).mp hwaiting with rfl | hwaiting
    · exact .inr fresh
    · exact .inl hwaiting
  | authenticated => exact .inl (ServerPort.waiting_authenticateClient hwaiting)
  | reader _ _ moves =>
    rw [stepped, moves.maps.2] at hwaiting
    exact .inl hwaiting

theorem Change.issued (h : server.Change input after output) : server.issued ⊆ after.issued := by
  cases h with
  | admitted => exact List.subset_cons_self _ _
  | _ => exact List.Subset.refl _

/-- The client was authenticated: it has been given out, and is not among the unauthenticated. -/
def Moved (server : TcpServer) (uuid : Uuid) : Prop :=
  uuid ∈ server.issued.map Prod.fst ∧ uuid ∉ server.port.notAuthenticatedListening

theorem Moved.step (h : server.Moved uuid) (hchange : server.Change input after output) :
    after.Moved uuid := by
  refine ⟨List.map_subset _ hchange.issued h.1, fun hwaiting => ?_⟩
  rcases hchange.waiting hwaiting with hbefore | hfresh
  · exact h.2 hbefore
  · exact hfresh h.1

/-- Who was authenticated has moved. -/
theorem Registered.moved (h : server.Registered settings)
    (hwaiting : uuid ∈ server.port.notAuthenticatedListening) (runtime : Option Runtime) :
    (server.operated (server.port.authenticateClient uuid runtime)).Moved uuid := by
  obtain ⟨infos, hinfos⟩ := AssocMap.lookup_of_mem hwaiting
  refine ⟨List.mem_map_of_mem (h.entries uuid infos (.inl hinfos)), ?_⟩
  rw [TcpServer.operated, ServerPort.authenticateClient_some hinfos]
  exact fun hmem => (AList.mem_erase.mp hmem).1 rfl

/-- Only `authenticate_client` sends to the channel, and it sends a client it has found. -/
theorem Change.clientAuthenticated (h : server.Change input after output)
    (hsent : uuid ∈ after.port.clientAuthenticated) :
    uuid ∈ server.port.clientAuthenticated ∨
      input = .authenticateClient uuid ∧ uuid ∈ server.port.notAuthenticatedListening ∧
        after = server.operated (server.port.authenticateClient uuid server.runtime) := by
  cases h with
  | startRuntime | connected | peer | admitted => exact .inl hsent
  | ran =>
    rw [operated, PortOp.run_clientAuthenticated] at hsent
    exact .inl hsent
  | @authenticated uuid' asked =>
    cases hlookup : server.port.notAuthenticatedListening.lookup uuid' with
    | none =>
      rw [operated, ServerPort.authenticateClient_none hlookup] at hsent
      exact .inl hsent
    | some infos =>
      have hchannel := hsent
      rw [operated, ServerPort.authenticateClient_some hlookup] at hchannel
      rcases List.mem_append.mp hchannel with hold | hnew
      · exact .inl hold
      · cases List.mem_singleton.mp hnew
        exact .inr ⟨asked, AssocMap.mem_of_lookup hlookup, rfl⟩
  | reader _ _ moves =>
    cases moves with
    | popped | handedOver => exact .inl (List.mem_of_mem_tail hsent)
    | _ => exact .inl hsent

/-! ## What an operation does for the clients -/

end TcpServer

namespace ServerPort

/-- Of every client that a reader was started for after an operation, the operation has started
it, or it has left the entry of the client and its notification as they were. -/
structure Serves (port after : ServerPort) (tasks : List Task) : Prop where
  waiting : ∀ uuid infos, after.notAuthenticatedListening.lookup uuid = some infos →
    infos.listening = true →
      (∃ framing, .read infos.readWriteType (some framing) uuid false ∈ tasks) ∨
        port.notAuthenticatedListening.lookup uuid = some infos ∧
          ((uuid, false) ∈ port.clientDisconnected → (uuid, false) ∈ after.clientDisconnected)
  listening : ∀ uuid infos, after.listeningClients.lookup uuid = some infos →
    (∃ framing, .read infos.readWriteType (some framing) uuid true ∈ tasks) ∨
      port.listeningClients.lookup uuid = some infos ∧
        ((uuid, true) ∈ port.clientDisconnected → (uuid, true) ∈ after.clientDisconnected)

variable {port : ServerPort} {settings : TcpSettingsServer}

theorem checkNotAuthenticatedClients_serves (hsettings : port.settings = .tcp settings)
    (runtime : Runtime) : port.Serves (port.checkNotAuthenticatedClients (some runtime)).1
      (port.checkNotAuthenticatedClients (some runtime)).2 where
  waiting uuid infos hlookup _ := by
    rw [checkNotAuthenticatedClients, AssocMap.lookup_mapVals] at hlookup
    obtain ⟨before, hbefore, rfl⟩ := Option.map_eq_some_iff.mp hlookup
    cases hlistening : before.listening with
    | true =>
      obtain ⟨stream, listening⟩ := before
      cases hlistening
      exact .inr ⟨hbefore, id⟩
    | false =>
      left
      refine ⟨(settings.bytes, settings.order), ?_⟩
      rw [ServerTcp.checkNotAuthenticatedClients_tasks hsettings, AssocMap.mem_collect]
      refine ⟨uuid, before, hbefore, ?_⟩
      rw [hlistening, hsettings]
      exact List.mem_singleton_self _
  listening uuid infos hlookup := .inr ⟨hlookup, id⟩

theorem authenticateClient_serves (port : ServerPort) (hsettings : port.settings = .tcp settings)
    (runtime : Runtime) (target : Uuid) :
    port.Serves (port.authenticateClient target (some runtime)).1
      (port.authenticateClient target (some runtime)).2 := by
  cases hinfos : port.notAuthenticatedListening.lookup target with
  | none =>
    rw [authenticateClient_none hinfos]
    exact ⟨fun _ _ hlookup _ => .inr ⟨hlookup, id⟩, fun _ _ hlookup => .inr ⟨hlookup, id⟩⟩
  | some infos =>
    rw [authenticateClient_some hinfos]
    refine ⟨fun _ _ hlookup _ => .inr ⟨(AssocMap.lookup_of_erase hlookup).2, id⟩, ?_⟩
    intro uuid infos' hlookup
    rcases AssocMap.lookup_of_insert hlookup with ⟨rfl, rfl⟩ | hbefore
    · left
      refine ⟨(settings.bytes, settings.order), ?_⟩
      rw [hsettings]
      exact List.mem_singleton_self _
    · exact .inr ⟨hbefore, id⟩

end ServerPort

theorem mem_of_popped {entry first : Uuid × Bool} {queue rest : List (Uuid × Bool)}
    (popped : queue = first :: rest) (hother : entry ≠ first) (hqueued : entry ∈ queue) :
    entry ∈ rest :=
  List.mem_of_ne_of_mem hother (popped ▸ hqueued)

theorem PortOp.run_serves {port : ServerPort} {settings : TcpSettingsServer} {op : PortOp}
    (hsettings : port.settings = .tcp settings)
    (hadmits : ∀ newUuid, op = .checkClientsConnected newUuid → port.clientConnected = [])
    (runtime : Runtime) :
    port.Serves (op.run port (some runtime)).1 (op.run port (some runtime)).2 := by
  by_cases hop : op = .checkNotAuthenticatedClients
  · subst hop
    exact ServerPort.checkNotAuthenticatedClients_serves hsettings runtime
  have heffect := op.run_effect port (some runtime)
  generalize op.run port (some runtime) = result at heffect
  obtain ⟨after, tasks⟩ := result
  cases heffect with
  | quiet _ _ disconnected _ listening waiting =>
    constructor
    · intro uuid infos hlookup _
      rw [waiting] at hlookup
      exact .inr ⟨hlookup, fun hqueued => disconnected ▸ hqueued⟩
    · intro uuid infos hlookup
      rw [listening] at hlookup
      exact .inr ⟨hlookup, fun hqueued => disconnected ▸ hqueued⟩
  | marked => exact absurd rfl hop
  | disconnected popped =>
    constructor
    · intro uuid infos hlookup _
      exact .inr ⟨hlookup, mem_of_popped popped nofun⟩
    · intro uuid infos hlookup
      obtain ⟨hother, hbefore⟩ := AssocMap.lookup_of_erase hlookup
      exact .inr ⟨hbefore, mem_of_popped popped fun heq => hother (Prod.mk.inj heq).1⟩
  | disconnectedWaiting popped =>
    constructor
    · intro uuid infos hlookup _
      obtain ⟨hother, hbefore⟩ := AssocMap.lookup_of_erase hlookup
      exact .inr ⟨hbefore, mem_of_popped popped fun heq => hother (Prod.mk.inj heq).1⟩
    · intro uuid infos hlookup
      exact .inr ⟨hlookup, mem_of_popped popped nofun⟩
  | admitted popped =>
    rw [hadmits _ rfl] at popped
    cases popped

namespace TcpServer
variable {settings : TcpSettingsServer} {server after : TcpServer} {input : TcpInput}
  {output : TcpOutput} {uuid : Uuid} {isAuthenticated : Bool}

/-! ## Who tends to a client -/

theorem Tends.operated (h : server.Tends uuid isAuthenticated) {result : ServerPort × List Task}
    (hkept : (uuid, isAuthenticated) ∈ server.port.clientDisconnected →
      (uuid, isAuthenticated) ∈ result.1.clientDisconnected) :
    (server.operated result).Tends uuid isAuthenticated := by
  rcases h with ⟨reader, hreader, hlive⟩ | hqueued
  · exact .inl ⟨reader, List.mem_append_left _ hreader, hlive⟩
  · exact .inr (hkept hqueued)

theorem tends_spawned {result : ServerPort × List Task} {stream : Stream}
    {framing : BytesOptions × OrderOptions}
    (h : .read stream (some framing) uuid isAuthenticated ∈ result.2) :
    (server.operated result).Tends uuid isAuthenticated := by
  refine .inl ⟨⟨stream, framing.1, framing.2, uuid, isAuthenticated, .locking⟩, ?_, rfl, rfl, nofun⟩
  exact List.mem_append_right _ (List.mem_filterMap.mpr ⟨_, h, rfl⟩)

theorem Tends.stepped (h : server.Tends uuid isAuthenticated) {i : Nat} {reader : Reader}
    {moved : ReaderStep} (hreader : server.readers[i]? = some reader)
    (hkept : server.port.clientDisconnected ⊆ moved.port.clientDisconnected)
    (hends : reader.target = uuid → reader.isAuthenticated = isAuthenticated →
      moved.phase ≠ .returned ∨ (uuid, isAuthenticated) ∈ moved.port.clientDisconnected) :
    (server.stepped i reader moved).Tends uuid isAuthenticated := by
  rcases h with ⟨reader', hmem, htarget, hstatus, hlive⟩ | hqueued
  · obtain ⟨j, hj⟩ := List.getElem?_of_mem hmem
    by_cases hij : j = i
    · subst hij
      cases hreader.symm.trans hj
      rcases hends htarget hstatus with hlive | hqueued
      · exact .inl ⟨_, List.mem_of_getElem? (stepped_reader_self hreader), htarget, hstatus, hlive⟩
      · exact .inr hqueued
    · exact .inl ⟨reader', List.mem_of_getElem? (stepped_reader_of hij hj), htarget, hstatus, hlive⟩
  · exact .inr (hkept hqueued)

theorem Sizes.of_accept {H : Framing.Header UInt8} {kind : StreamKind} {stream : Stream}
    (h : (server.accept kind).Sizes H stream) : server.Sizes H stream := by
  intro peer hpeer
  apply h peer
  rw [accept, List.getElem?_append_left (List.getElem?_eq_some_iff.mp hpeer).1]
  exact hpeer

/-- Bytes that only arrive have not been taken. -/
theorem Sizes.of_set {H : Framing.Header UInt8} {i : Nat} {before peer : Peer} {stream : Stream}
    (hlookup : server.peers[i]? = some before) (hconsumed : peer.consumed = before.consumed)
    (h : ({ server with peers := server.peers.set i peer } : TcpServer).Sizes H stream) :
    server.Sizes H stream := by
  intro peer' hpeer'
  by_cases hid : stream.id = i
  · rw [hid, hlookup] at hpeer'
    cases hpeer'
    rw [← hconsumed]
    apply h peer
    rw [hid, List.getElem?_set_self (List.getElem?_eq_some_iff.mp hlookup).1]
  · apply h peer'
    rw [List.getElem?_set_ne (Ne.symm hid)]
    exact hpeer'

/-- There is a runtime, every client in the channel was authenticated, and every client that a
reader was started for is tended to. -/
structure Attended (H : Framing.Header UInt8) (server : TcpServer) : Prop where
  runtime : server.runtime.isSome
  moved : ∀ uuid ∈ server.port.clientAuthenticated, server.Moved uuid
  waiting : ∀ uuid infos, server.port.notAuthenticatedListening.lookup uuid = some infos →
    infos.listening = true → server.Sizes H infos.readWriteType → server.Tends uuid false
  listening : ∀ uuid infos, server.port.listeningClients.lookup uuid = some infos →
    server.Sizes H infos.readWriteType → server.Tends uuid true

/-- A fresh server whose connection has its runtime. -/
def started (settings : TcpSettingsServer) : TcpServer :=
  { new settings with runtime := some .new }

namespace Attended
variable {H : Framing.Header UInt8}

theorem start (H : Framing.Header UInt8) : (started settings).Attended H where
  runtime := rfl
  moved uuid h := absurd h List.not_mem_nil
  waiting uuid infos h := by cases h
  listening uuid infos h := by cases h

/-- What leaves the clients and the readers alone, and no stream sounder than it was. -/
theorem kept (h : server.Attended H) (hruntime : after.runtime = server.runtime)
    (hreaders : after.readers = server.readers)
    (hwaiting : after.port.notAuthenticatedListening = server.port.notAuthenticatedListening)
    (hlistening : after.port.listeningClients = server.port.listeningClients)
    (hqueue : after.port.clientDisconnected = server.port.clientDisconnected)
    (hmoved : ∀ uuid ∈ after.port.clientAuthenticated, after.Moved uuid)
    (hsizes : ∀ stream, after.Sizes H stream → server.Sizes H stream) : after.Attended H where
  runtime := hruntime ▸ h.runtime
  moved := hmoved
  waiting uuid infos hlookup hmarked hafter := by
    rw [hwaiting] at hlookup
    rw [Tends, hreaders, hqueue]
    exact h.waiting uuid infos hlookup hmarked (hsizes _ hafter)
  listening uuid infos hlookup hafter := by
    rw [hlistening] at hlookup
    rw [Tends, hreaders, hqueue]
    exact h.listening uuid infos hlookup (hsizes _ hafter)

/-- An operation, or `authenticate_client`, that serves every client. -/
theorem operated (h : server.Attended H) {result : ServerPort × List Task}
    (hserves : server.port.Serves result.1 result.2)
    (hmoved : ∀ uuid ∈ result.1.clientAuthenticated, (server.operated result).Moved uuid) :
    (server.operated result).Attended H where
  runtime := h.runtime
  moved := hmoved
  waiting uuid infos hlookup hlistening hsizes := by
    rcases hserves.waiting uuid infos hlookup hlistening with ⟨framing, htask⟩ | ⟨hbefore, hkept⟩
    · exact tends_spawned htask
    · exact (h.waiting uuid infos hbefore hlistening hsizes).operated hkept
  listening uuid infos hlookup hsizes := by
    rcases hserves.listening uuid infos hlookup with ⟨framing, htask⟩ | ⟨hbefore, hkept⟩
    · exact tends_spawned htask
    · exact (h.listening uuid infos hbefore hsizes).operated hkept

/-- **A step of a reader.** If it returns, then its client is reported, or has moved on to a
reader that is authenticated. -/
theorem stepped (h : server.Attended H) (hregistered : server.Registered settings)
    (hlocks : server.Locks) {pushed : List (List UInt8 × Uuid)}
    (hhands : server.HandsOver H pushed)
    (hframing : frameHeader settings.bytes settings.order = H) {i : Nat} {reader : Reader}
    {peer : Peer} {moved : ReaderStep} (hreader : server.readers[i]? = some reader)
    (hpeer : server.peers[reader.stream.id]? = some peer)
    (hmoves : reader.Moves i peer server.port server.channelHolder moved)
    (hmoved : ∀ uuid ∈ (server.stepped i reader moved).port.clientAuthenticated,
      (server.stepped i reader moved).Moved uuid) :
    (server.stepped i reader moved).Attended H := by
  have hmem := List.mem_of_getElem? hreader
  obtain ⟨hissued, hbytes, horder⟩ := hregistered.readers reader hmem
  rw [← hbytes, ← horder] at hframing
  have hcut : peer.Whole H →
      peer.Dead ∨ (Framing.feedAll H .start peer.consumed).1 = reader.phase.state :=
    fun hwhole => hlocks.cut_eq hreader hpeer hmoves ▸ hhands.cut _ peer hpeer hwhole
  obtain ⟨hlistening, hwaiting⟩ := hmoves.maps
  have hself : (server.stepped i reader moved).peers[reader.stream.id]? = some moved.peer := by
    rw [TcpServer.stepped, List.getElem?_set_self (hregistered.stream_lt hreader)]
  -- a stream that is sound after the step was sound before it
  have hsizes : ∀ stream, (server.stepped i reader moved).Sizes H stream →
      server.Sizes H stream := by
    intro stream hafter peer' hpeer'
    by_cases hid : stream.id = reader.stream.id
    · rw [hid] at hpeer'
      cases hpeer.symm.trans hpeer'
      have hwhole := Peer.whole_iff.mpr (hafter moved.peer (hid ▸ hself))
      exact Peer.whole_iff.mp (hmoves.reads hframing hcut hwhole).1
    · apply hafter peer'
      rw [TcpServer.stepped, List.getElem?_set_ne (Ne.symm hid)]
      exact hpeer'
  have hends : ∀ {uuid : Uuid} {infos : ListeningInfos}, server.port.Entry uuid infos →
      (server.stepped i reader moved).Sizes H infos.readWriteType → reader.target = uuid →
        moved.phase ≠ .returned ∨
          (reader.phase = .draining ∧ reader.target ∈ server.port.clientAuthenticated) ∨
          (reader.target, reader.isAuthenticated) ∈ moved.port.clientDisconnected := by
    intro uuid infos hentry hafter htarget
    obtain ⟨-, hstream⟩ := hregistered.unique (hregistered.entries uuid infos hentry) hissued
      (.inl htarget.symm)
    rw [hstream] at hafter
    exact hmoves.ends hframing hcut (Peer.whole_iff.mpr (hafter moved.peer hself))
  refine ⟨h.runtime, hmoved, ?_, ?_⟩
  · intro uuid infos hlookup hstarted hafter
    have hbefore : server.port.notAuthenticatedListening.lookup uuid = some infos := by
      rw [← hwaiting]
      exact hlookup
    apply (h.waiting uuid infos hbefore hstarted (hsizes _ hafter)).stepped hreader
      hmoves.clientDisconnected
    rintro rfl hstatus
    rcases hends (.inl hbefore) hafter rfl with hlive | ⟨-, hchannel⟩ | hqueued
    · exact .inl hlive
    · exact absurd (AssocMap.mem_of_lookup hbefore) (h.moved _ hchannel).2
    · exact .inr (hstatus ▸ hqueued)
  · intro uuid infos hlookup hafter
    have hbefore : server.port.listeningClients.lookup uuid = some infos := by
      rw [← hlistening]
      exact hlookup
    apply (h.listening uuid infos hbefore (hsizes _ hafter)).stepped hreader
      hmoves.clientDisconnected
    rintro rfl hstatus
    rcases hends (.inr hbefore) hafter rfl with hlive | ⟨hdraining, -⟩ | hqueued
    · exact .inl hlive
    · cases hstatus.symm.trans (hregistered.asks reader hmem (.inr hdraining))
    · exact .inr (hstatus ▸ hqueued)

theorem step (h : server.Attended H) (hregistered : server.Registered settings)
    (hlocks : server.Locks) {pushed : List (List UInt8 × Uuid)}
    (hhands : server.HandsOver H pushed)
    (hframing : frameHeader settings.bytes settings.order = H)
    (hchange : server.Change input after output) : after.Attended H := by
  have hmoved : ∀ uuid ∈ after.port.clientAuthenticated, after.Moved uuid := by
    intro uuid huuid
    rcases hchange.clientAuthenticated huuid with hbefore | ⟨-, hwaiting, rfl⟩
    · exact (h.moved uuid hbefore).step hchange
    · exact hregistered.moved hwaiting _
  obtain ⟨runtime, hruntime⟩ := Option.isSome_iff_exists.mp h.runtime
  cases hchange with
  | startRuntime => exact ⟨rfl, h.moved, h.waiting, h.listening⟩
  | ran _ admits =>
    refine h.operated ?_ hmoved
    rw [hruntime]
    exact PortOp.run_serves hregistered.configured (admits_eq_none.mp admits) runtime
  | @admitted newUuid stream rest fresh queue =>
    refine ⟨h.runtime, hmoved, ?_, h.listening⟩
    intro uuid infos hlookup hlistening hsizes
    rcases AssocMap.lookup_of_insert hlookup with ⟨-, rfl⟩ | hbefore
    · cases hlistening
    · exact h.waiting uuid infos hbefore hlistening hsizes
  | authenticated =>
    refine h.operated ?_ hmoved
    rw [hruntime]
    exact server.port.authenticateClient_serves hregistered.configured runtime _
  | connected => exact h.kept rfl rfl rfl rfl rfl hmoved fun stream => Sizes.of_accept
  | peer lookup _ consumed =>
    exact h.kept rfl rfl rfl rfl rfl hmoved fun stream => Sizes.of_set lookup consumed
  | reader lookup stream moves =>
    exact h.stepped hregistered hlocks hhands hframing lookup stream moves hmoved

end Attended

end TcpServer

/-! ## The runs of a server -/

section Runs
variable {settings : TcpSettingsServer} {ts : List TcpTransition} {server : TcpServer}

/-- A run with a runtime is the rest of a run that began without one. -/
theorem run_of_started (h : tcpMachine.Run (started settings) ts server) :
    tcpMachine.Run (.new settings)
      (⟨.new settings, .startRuntime, quiet, started settings⟩ :: ts) server := by
  have hstart : tcpMachine.step (.new settings) .startRuntime = some (started settings, quiet) :=
    rfl
  exact (Machine.Run.single hstart).append h

theorem attended_run (h : tcpMachine.Run (started settings) ts server) :
    server.Attended (frameHeader settings.bytes settings.order) := by
  refine h.history (fun _ server => server.Attended (frameHeader settings.bytes settings.order))
    (.start _) ?_
  intro ts t hrun hattended hof
  have hbefore := run_of_started hrun
  obtain ⟨hlocks, hhands⟩ := handsOver_run hbefore
  exact hattended.step (registered_run hbefore) hlocks hhands rfl (step_change hof)

/-- **No client is left without a task.** In every run of a server that has its runtime, every
client that is marked as listened to, in either map, has a reader of that status that has not
returned, or a notification with that status waits, unless one of the headers on its stream
states more than `isize::MAX`. -/
theorem no_orphan (settings : TcpSettingsServer) (ts : List TcpTransition) (server : TcpServer)
    (h : tcpMachine.Run (started settings) ts server) :
    (∀ uuid infos, server.port.notAuthenticatedListening.lookup uuid = some infos →
      infos.listening = true →
        server.Sizes (frameHeader settings.bytes settings.order) infos.readWriteType →
          server.Tends uuid false) ∧
    ∀ uuid infos, server.port.listeningClients.lookup uuid = some infos →
      server.Sizes (frameHeader settings.bytes settings.order) infos.readWriteType →
        server.Tends uuid true :=
  ⟨(attended_run h).waiting, (attended_run h).listening⟩

end Runs

/-- A client hangs up after its first reader has read a message, and before that reader finds it
in the channel. -/
def tendedInputs : List TcpInput :=
  [.connect .stream, .portOp (.checkClientsConnected 7), .portOp .checkNotAuthenticatedClients,
    .send 0 [1, 0, 0, 0, 42], .reader 0, .reader 0, .reader 0, .reader 0, .reader 0, .reader 0,
    .reader 0, .reader 0, .close 0, .authenticateClient 7]

def tendedRun : List TcpTransition × TcpServer :=
  (tcpMachine.exec (started .default) tendedInputs).getD ([], .new .default)

theorem run_tendedRun : tcpMachine.Run (started .default) tendedRun.1 tendedRun.2 := by
  have hexec : tcpMachine.exec (started .default) tendedInputs = some tendedRun := rfl
  exact .of_exec hexec

/-- The second reader waits for the lock that the first one has. -/
theorem no_orphan_tendedRun :
    tendedRun.2.port.clientDisconnected = [] ∧ tendedRun.2.Tends 7 true := by
  refine ⟨rfl, (no_orphan .default _ _ run_tendedRun).2 7 ⟨⟨0, .stream⟩, true⟩ rfl ?_⟩
  intro peer hpeer
  cases hpeer
  apply Peer.whole_iff.mp
  unfold Peer.Whole
  decide

end Inator
