import Inator.Verify.Holders
import Inator.Verify.Orphans

/-! # The channel of the authenticated clients

All the readers of a `ServerTcp` that were started before authentication share the receiving end
of one channel, and each of them empties it in every turn of its loop: it drops the UUIDs of the
others. So a UUID reaches its reader only if no other one finds it first. -/

namespace Inator
open TcpServer

/-! ## One reader of each status for a client -/

/-- Whose reader it is. -/
def Reader.identity (reader : Reader) : Uuid × Bool := (reader.target, reader.isAuthenticated)

/-- The readers that `check_not_authenticated_clients` starts. -/
theorem ServerTcp.identity_spawned {port : ServerPort} {settings : TcpSettingsServer}
    (hsettings : port.settings = .tcp settings) (runtime : Runtime) :
    ((port.checkNotAuthenticatedClients (some runtime)).2.filterMap Reader.spawn).map
        Reader.identity =
      AssocMap.collect (fun key infos => if infos.listening then [] else [(key, false)])
        port.notAuthenticatedListening := by
  rw [checkNotAuthenticatedClients_tasks hsettings, hsettings]
  simp only [AssocMap.collect, List.filterMap_flatMap, List.map_flatMap]
  refine List.flatMap_congr fun entry _ => ?_
  cases entry.2.listening <;> rfl

/-- It starts them for unauthenticated clients that are not marked. -/
theorem ServerTcp.read_mem_checkNotAuthenticatedClients {port : ServerPort}
    {settings : TcpSettingsServer} (hsettings : port.settings = .tcp settings)
    {runtime : Option Runtime} {stream : Stream} {framing : StreamFraming} {target : Uuid}
    {isAuthenticated : Bool}
    (h : .read stream framing target isAuthenticated ∈
      (port.checkNotAuthenticatedClients runtime).2) :
    isAuthenticated = false ∧ ∃ infos, infos.listening = false ∧
      port.notAuthenticatedListening.lookup target = some infos := by
  cases runtime with
  | none =>
    obtain ⟨key, -, htask⟩ := List.mem_flatMap.mp h
    rw [ServerPort.startListeningNotAuthenticatedClient, hsettings] at htask
    cases htask
  | some runtime =>
    rw [checkNotAuthenticatedClients_tasks hsettings, AssocMap.mem_collect] at h
    obtain ⟨key, infos, hlookup, hmem⟩ := h
    cases hlistening : infos.listening with
    | true =>
      rw [hlistening] at hmem
      cases hmem
    | false =>
      rw [hlistening] at hmem
      cases List.mem_singleton.mp hmem
      exact ⟨rfl, infos, hlistening, hlookup⟩

namespace TcpServer
variable {settings : TcpSettingsServer} {server after : TcpServer} {input : TcpInput}
  {output : TcpOutput} {uuid : Uuid}

/-- No two readers are for the same client with the same status, and an unauthenticated client
has a reader only if it is marked. -/
structure OneReader (server : TcpServer) : Prop where
  distinct : (server.readers.map Reader.identity).Nodup
  unread : ∀ uuid infos, server.port.notAuthenticatedListening.lookup uuid = some infos →
    ∀ reader ∈ server.readers, reader.target = uuid →
      reader.isAuthenticated = false ∧ infos.listening = true

theorem step_external {op : PortOp} (h : server.step (.portOp op) = some (after, output)) :
    op.internal = false := by
  cases hinternal : op.internal with
  | false => rfl
  | true =>
    simp only [step, hinternal, if_true] at h
    cases h

/-- An operation that starts no reader. -/
theorem operated_readers {result : ServerPort × List Task}
    (h : ∀ stream framing target isAuthenticated,
      .read stream framing target isAuthenticated ∉ result.2) :
    (server.operated result).readers = server.readers := by
  have hnone : result.2.filterMap Reader.spawn = [] := by
    refine List.filterMap_eq_nil_iff.mpr fun task htask => ?_
    cases hspawn : Reader.spawn task with
    | none => rfl
    | some reader =>
      obtain ⟨-, rfl⟩ := Reader.spawn_eq_some.mp hspawn
      exact absurd htask (h _ _ _ _)
  rw [operated, hnone, List.append_nil]

namespace OneReader

theorem start : (new settings).OneReader where
  distinct := List.nodup_nil
  unread uuid infos h := by cases h

/-- An operation that starts no reader, and enters no unauthenticated client. -/
theorem operated (h : server.OneReader) {result : ServerPort × List Task}
    (hreads : ∀ stream framing target isAuthenticated,
      .read stream framing target isAuthenticated ∉ result.2)
    (hwaiting : ∀ uuid infos, result.1.notAuthenticatedListening.lookup uuid = some infos →
      ∃ before, server.port.notAuthenticatedListening.lookup uuid = some before ∧
        (before.listening = true → infos.listening = true)) :
    (server.operated result).OneReader where
  distinct := by
    rw [operated_readers hreads]
    exact h.distinct
  unread uuid infos hlookup reader hreader htarget := by
    rw [operated_readers hreads] at hreader
    obtain ⟨before, hbefore, hmarked⟩ := hwaiting uuid infos hlookup
    exact (h.unread uuid before hbefore reader hreader htarget).imp_right hmarked

/-- `check_not_authenticated_clients` starts the readers of the clients that are not marked. -/
theorem marked (h : server.OneReader) (hregistered : server.Registered settings) :
    (server.operated (PortOp.run server.port server.runtime
      .checkNotAuthenticatedClients)).OneReader := by
  have hmarks : ∀ uuid infos, (PortOp.run server.port server.runtime
      .checkNotAuthenticatedClients).1.notAuthenticatedListening.lookup uuid = some infos →
      infos.listening = true ∧
        ∃ before, server.port.notAuthenticatedListening.lookup uuid = some before := by
    intro uuid infos hlookup
    rw [PortOp.run, ServerPort.checkNotAuthenticatedClients, AssocMap.lookup_mapVals] at hlookup
    obtain ⟨before, hbefore, rfl⟩ := Option.map_eq_some_iff.mp hlookup
    exact ⟨rfl, before, hbefore⟩
  cases hruntime : server.runtime with
  | none =>
    rw [hruntime] at hmarks
    apply h.operated
    · intro stream framing target isAuthenticated hread
      obtain ⟨key, -, htask⟩ := List.mem_flatMap.mp hread
      rw [ServerPort.startListeningNotAuthenticatedClient, hregistered.configured] at htask
      cases htask
    · intro uuid infos hlookup
      obtain ⟨hlistening, before, hbefore⟩ := hmarks uuid infos hlookup
      exact ⟨before, hbefore, fun _ => hlistening⟩
  | some runtime =>
    rw [hruntime] at hmarks
    have hnew := ServerTcp.identity_spawned hregistered.configured runtime
    have hidentity : ∀ reader ∈ (server.port.checkNotAuthenticatedClients
        (some runtime)).2.filterMap Reader.spawn, reader.isAuthenticated = false ∧
          ∃ infos, infos.listening = false ∧
            server.port.notAuthenticatedListening.lookup reader.target = some infos := by
      intro reader hmem
      obtain ⟨task, htask, hspawn⟩ := List.mem_filterMap.mp hmem
      obtain ⟨-, rfl⟩ := Reader.spawn_eq_some.mp hspawn
      exact ServerTcp.read_mem_checkNotAuthenticatedClients hregistered.configured htask
    constructor
    · rw [TcpServer.operated, List.map_append]
      refine List.nodup_append.mpr ⟨h.distinct, ?_, ?_⟩
      · rw [PortOp.run, hnew]
        apply AssocMap.nodup_collect Prod.fst
        · intro key infos identity hmem
          cases hlistening : infos.listening <;> rw [hlistening] at hmem
          · rw [List.mem_singleton.mp hmem]
          · cases hmem
        · intro key infos
          cases infos.listening
          · exact List.nodup_singleton _
          · exact List.nodup_nil
      · rintro _ hold _ hnew rfl
        obtain ⟨reader, hreader, rfl⟩ := List.mem_map.mp hold
        obtain ⟨reader', hspawned, heq⟩ := List.mem_map.mp hnew
        obtain ⟨-, infos, hunmarked, hlookup⟩ := hidentity reader' hspawned
        have htarget : reader.target = reader'.target := (Prod.mk.inj heq).1.symm
        have hmarked := (h.unread _ infos hlookup reader hreader htarget).2
        cases hunmarked.symm.trans hmarked
    · intro uuid infos hlookup reader hreader htarget
      obtain ⟨hlistening, before, hbefore⟩ := hmarks uuid infos hlookup
      refine ⟨?_, hlistening⟩
      rcases List.mem_append.mp hreader with hold | hspawned
      · exact (h.unread uuid before hbefore reader hold htarget).1
      · exact (hidentity reader hspawned).1

/-- `authenticate_client` starts the second reader of a client it has found. -/
theorem authenticated (h : server.OneReader) (hregistered : server.Registered settings)
    {infos : ListeningInfos}
    (hlookup : server.port.notAuthenticatedListening.lookup uuid = some infos) :
    (server.operated (server.port.authenticateClient uuid server.runtime)).OneReader := by
  have hother : ∀ uuid' infos', (server.port.notAuthenticatedListening.erase uuid).lookup uuid' =
      some infos' → uuid' ≠ uuid ∧ server.port.notAuthenticatedListening.lookup uuid' =
        some infos' := fun _ _ => AssocMap.lookup_of_erase
  rw [ServerPort.authenticateClient_some hlookup]
  cases server.runtime with
  | none =>
    apply h.operated fun _ _ _ _ hread => absurd hread List.not_mem_nil
    exact fun uuid' infos' hafter => ⟨infos', (hother uuid' infos' hafter).2, id⟩
  | some runtime =>
    rw [hregistered.configured]
    constructor
    · rw [TcpServer.operated, List.map_append]
      refine List.nodup_append.mpr ⟨h.distinct, List.nodup_singleton _, ?_⟩
      rintro _ hold identity hspawned rfl
      obtain ⟨reader, hreader, hidentity⟩ := List.mem_map.mp hold
      rw [List.mem_singleton.mp hspawned] at hidentity
      obtain ⟨htarget, hstatus⟩ := Prod.mk.inj hidentity
      have hunread := (h.unread uuid infos hlookup reader hreader htarget).1
      cases hstatus.symm.trans hunread
    · intro uuid' infos' hafter reader hreader htarget
      obtain ⟨hne, hbefore⟩ := hother uuid' infos' hafter
      rcases List.mem_append.mp hreader with hold | hspawned
      · exact h.unread uuid' infos' hbefore reader hold htarget
      · cases List.mem_singleton.mp hspawned
        exact absurd htarget.symm hne

theorem stepped (h : server.OneReader) {i : Nat} {reader : Reader} {peer : Peer}
    {moved : ReaderStep} (hreader : server.readers[i]? = some reader)
    (hmoves : reader.Moves i peer server.port server.channelHolder moved) :
    (server.stepped i reader moved).OneReader where
  distinct := by
    have hsame : (server.stepped i reader moved).readers.map Reader.identity =
        server.readers.map Reader.identity := by
      obtain ⟨hlt, rfl⟩ := List.getElem?_eq_some_iff.mp hreader
      have hlength : i < (server.readers.map Reader.identity).length := by rwa [List.length_map]
      have hidentity : Reader.identity { server.readers[i] with phase := moved.phase } =
          (server.readers.map Reader.identity)[i] := by
        rw [List.getElem_map]
        rfl
      rw [TcpServer.stepped, List.map_set, hidentity, List.set_getElem_self]
    rw [hsame]
    exact h.distinct
  unread uuid infos hlookup reader' hreader' htarget := by
    rw [TcpServer.stepped, hmoves.maps.2] at hlookup
    rcases List.mem_or_eq_of_mem_set hreader' with hold | rfl
    · exact h.unread uuid infos hlookup reader' hold htarget
    · exact h.unread uuid infos hlookup reader (List.mem_of_getElem? hreader) htarget

theorem step (h : server.OneReader) (hregistered : server.Registered settings)
    (hstep : server.step input = some (after, output)) : after.OneReader := by
  have hchange := step_change hstep
  cases hchange with
  | startRuntime | connected | peer => exact ⟨h.distinct, h.unread⟩
  | @ran op asked admits =>
    subst asked
    by_cases hop : op = .checkNotAuthenticatedClients
    · subst hop
      exact h.marked hregistered
    apply h.operated (PortOp.read_notMem_run (step_external hstep) hop)
    exact fun uuid infos hlookup =>
      ⟨infos, PortOp.lookup_run (admits_eq_none.mp admits) hop hlookup, id⟩
  | @admitted newUuid stream rest fresh queue =>
    refine ⟨h.distinct, ?_⟩
    intro uuid infos hlookup reader hreader htarget
    rcases AssocMap.lookup_of_insert hlookup with ⟨rfl, -⟩ | hbefore
    · obtain ⟨hissued, -⟩ := hregistered.readers reader hreader
      exact absurd (htarget ▸ List.mem_map_of_mem hissued) fresh
    · exact h.unread uuid infos hbefore reader hreader htarget
  | @authenticated uuid' asked =>
    cases hlookup : server.port.notAuthenticatedListening.lookup uuid' with
    | none =>
      rw [ServerPort.authenticateClient_none hlookup]
      apply h.operated fun _ _ _ _ hread => absurd hread List.not_mem_nil
      exact fun uuid infos hbefore => ⟨infos, hbefore, id⟩
    | some infos => exact h.authenticated hregistered hlookup
  | reader lookup stream moves => exact h.stepped lookup moves

end OneReader

/-- Two readers of one client with one status are the same task. -/
theorem OneReader.eq (h : server.OneReader) {i j : Nat} {reader reader' : Reader}
    (hreader : server.readers[i]? = some reader) (hreader' : server.readers[j]? = some reader')
    (hidentity : reader.identity = reader'.identity) : i = j := by
  have hi : (server.readers.map Reader.identity)[i]? = some reader.identity := by
    rw [List.getElem?_map, hreader]
    rfl
  have hj : (server.readers.map Reader.identity)[j]? = some reader.identity := by
    rw [List.getElem?_map, hreader', hidentity]
    rfl
  exact (List.getElem?_inj (List.getElem?_eq_some_iff.mp hi).1 h.distinct).mp (hi.trans hj.symm)

/-! ## What a step does to the channel -/

/-- What a step does to the channel: `authenticate_client` sends a client it has found, and a
reader that drains the channel takes its first UUID. -/
inductive ChannelStep (server : TcpServer) (input : TcpInput) (after : TcpServer) : Prop
  | kept (channel : after.port.clientAuthenticated = server.port.clientAuthenticated)
  | sent {uuid : Uuid} (asked : input = .authenticateClient uuid)
      (found : uuid ∈ server.port.notAuthenticatedListening)
      (channel : after.port.clientAuthenticated = server.port.clientAuthenticated ++ [uuid])
  | taken {i : Nat} {reader : Reader} {uuid : Uuid} {rest : List Uuid} (asked : input = .reader i)
      (lookup : server.readers[i]? = some reader) (phase : reader.phase = .draining)
      (queue : server.port.clientAuthenticated = uuid :: rest)
      (channel : after.port.clientAuthenticated = rest)
      (returned : uuid = reader.target →
        after.readers[i]? = some { reader with phase := .returned })

theorem readerStep_channel {i : Nat} (h : server.readerStep i = some (after, output)) :
    ChannelStep server (.reader i) after := by
  obtain ⟨reader, peer, moved, hreader, -, hmoves, rfl, -⟩ := readerStep_spec h
  cases hmoves with
  | locked | lockedChannel | drained | took | panicked | finished | disconnected =>
    exact .kept rfl
  | @popped uuid rest phase queue other =>
    refine .taken rfl hreader phase queue ?_ fun hown => absurd hown other
    exact congrArg List.tail queue
  | @handedOver rest phase queue =>
    refine .taken rfl hreader phase queue ?_ fun _ => stepped_reader_self hreader
    exact congrArg List.tail queue

/-- A reader that drains the channel takes the first UUID, if there is one. -/
theorem readerStep_drains {i : Nat} {reader : Reader} {rest : List Uuid}
    (h : server.readerStep i = some (after, output)) (hreader : server.readers[i]? = some reader)
    (hphase : reader.phase = .draining) (hqueue : server.port.clientAuthenticated = uuid :: rest) :
    after.port.clientAuthenticated = rest := by
  obtain ⟨reader', peer, moved, hreader', -, hmoves, rfl, -⟩ := readerStep_spec h
  cases hreader.symm.trans hreader'
  cases hmoves with
  | drained _ empty => cases hqueue.symm.trans empty
  | popped | handedOver => exact congrArg List.tail hqueue
  | locked phase | lockedChannel phase | took phase | panicked phase | finished phase
  | disconnected phase => cases hphase.symm.trans phase

theorem step_channel (h : server.step input = some (after, output)) :
    ChannelStep server input after := by
  have hpeers : ∀ {stream : Nat} {f : Peer → Peer},
      server.modifyPeer stream f = some (after, output) → ChannelStep server input after := by
    intro stream f hmodify
    simp only [modifyPeer] at hmodify
    split at hmodify
    · cases hmodify
    · split at hmodify
      · cases hmodify
      · cases hmodify
        exact .kept rfl
  cases input with
  | startRuntime | connect kind =>
    cases h
    exact .kept rfl
  | portOp op =>
    simp only [step, portOp] at h
    split at h
    · cases h
    · split at h
      · cases h
      · cases h
        exact .kept (PortOp.run_clientAuthenticated _ _ op)
  | authenticateClient uuid =>
    cases h
    cases hlookup : server.port.notAuthenticatedListening.lookup uuid with
    | none =>
      rw [ServerPort.authenticateClient_none hlookup]
      exact .kept rfl
    | some infos =>
      rw [ServerPort.authenticateClient_some hlookup]
      exact .sent rfl (AssocMap.mem_of_lookup hlookup) rfl
  | send stream bytes => exact hpeers h
  | close stream => exact hpeers h
  | fail stream => exact hpeers h
  | reader i => exact readerStep_channel h

/-- A reader comes to drain the channel by a step of its own, with the lock of the channel. -/
theorem draining_before (h : server.step input = some (after, output)) {j : Nat} {reader : Reader}
    (hreader : after.readers[j]? = some reader) (hphase : reader.phase = .draining) :
    server.readers[j]? = some reader ∨ input = .reader j ∧ ∃ before : Reader,
      server.readers[j]? = some before ∧ before.target = reader.target ∧
        (before.phase = .draining ∨ before.phase = .lockingChannel) := by
  have hspawned : ∀ {result : ServerPort × List Task},
      (server.operated result).readers[j]? = some reader → server.readers[j]? = some reader := by
    intro result hoperated
    refine (operated_reader hoperated).resolve_right fun hnew => hnew ?_
    constructor <;>
      · rw [hphase]
        exact nofun
  have hstart : ∀ reader : Reader, reader.loopStart ≠ .draining := by
    intro reader
    unfold Reader.loopStart
    cases reader.isAuthenticated <;> exact nofun
  cases input with
  | startRuntime | connect =>
    cases h
    exact .inl hreader
  | portOp op =>
    simp only [step, portOp] at h
    split at h
    · cases h
    · split at h
      · cases h
      · cases h
        exact .inl (hspawned hreader)
  | authenticateClient uuid =>
    cases h
    exact .inl (hspawned hreader)
  | send | close | fail =>
    simp only [step, modifyPeer] at h
    split at h
    · cases h
    · split at h
      · cases h
      · cases h
        exact .inl hreader
  | reader i =>
    obtain ⟨before, peer, moved, hbefore, -, hmoves, rfl, -⟩ := readerStep_spec h
    rcases of_getElem?_set hreader with ⟨rfl, rfl⟩ | ⟨-, hold⟩
    · refine .inr ⟨rfl, before, hbefore, rfl, ?_⟩
      cases hmoves with
      | lockedChannel phase => exact .inr phase
      | popped phase => exact .inl phase
      | locked | finished => exact absurd hphase (hstart before)
      | drained | handedOver | took | panicked | disconnected => cases hphase
    · exact .inl hold

end TcpServer

/-! ## The runs of a server -/

/-- `authenticate_client` was called for the client, and has found it. -/
def Authenticates (ts : List TcpTransition) (uuid : Uuid) : Prop :=
  ∃ t ∈ ts, t.input = .authenticateClient uuid ∧ uuid ∈ t.pre.port.notAuthenticatedListening

/-- The reader that the client had before it was authenticated has not returned. -/
def TcpServer.Awaits (server : TcpServer) (uuid : Uuid) : Prop :=
  ∃ reader ∈ server.readers, reader.identity = (uuid, false) ∧ reader.phase ≠ .returned

/-- Only the reader of a client takes its UUID from the channel, and the UUID is there as long as
that reader has not returned. -/
structure Delivers (ts : List TcpTransition) : Prop where
  own : ∀ t ∈ ts, ∀ uuid,
    t.post.port.clientAuthenticated.count uuid < t.pre.port.clientAuthenticated.count uuid →
      ∃ i reader, t.input = .reader i ∧ t.pre.readers[i]? = some reader ∧
        reader.identity = (uuid, false)
  there : ∀ before t after, ts = before ++ t :: after →
    ∀ uuid, Authenticates (before ++ [t]) uuid → t.post.Awaits uuid →
      uuid ∈ t.post.port.clientAuthenticated

/-- A reader that comes to drain the channel finds its own client first, if it finds one. -/
def FindsOwn (t : TcpTransition) : Prop :=
  ∀ i reader uuid rest, t.input = .reader i → t.pre.readers[i]? = some reader →
    reader.phase = .draining → t.pre.port.clientAuthenticated = uuid :: rest →
      reader.target = uuid

/-- A reader that drains the channel has its own client before it, or nobody. -/
def TcpServer.Ready (server : TcpServer) : Prop :=
  ∀ (i : Nat) (reader : Reader) (uuid : Uuid) (rest : List Uuid),
    server.readers[i]? = some reader → reader.phase = .draining →
      server.port.clientAuthenticated = uuid :: rest → reader.target = uuid

/-- Who takes the lock of the channel, and when a client is sent. -/
structure InTurn (t : TcpTransition) : Prop where
  locks : ∀ i reader uuid rest, t.input = .reader i → t.pre.readers[i]? = some reader →
    reader.phase = .lockingChannel → t.pre.port.clientAuthenticated = uuid :: rest →
      reader.target = uuid
  sends : ∀ uuid, t.input = .authenticateClient uuid →
    uuid ∈ t.pre.port.notAuthenticatedListening → t.pre.port.clientAuthenticated = [] →
      ∀ reader ∈ t.pre.readers, reader.phase = .draining → reader.target = uuid

section Runs
variable {settings : TcpSettingsServer} {ts : List TcpTransition} {t : TcpTransition}
  {server after : TcpServer} {input : TcpInput} {output : TcpOutput} {uuid : Uuid}

theorem oneReader_run (h : tcpMachine.Run (.new settings) ts server) : server.OneReader :=
  h.history (fun _ server => server.OneReader) .start fun _ _ hrun hone hof =>
    hone.step (registered_run hrun) hof

theorem authenticates_snoc : Authenticates (ts ++ [t]) uuid ↔ Authenticates ts uuid ∨
    t.input = .authenticateClient uuid ∧ uuid ∈ t.pre.port.notAuthenticatedListening := by
  simp only [Authenticates, List.mem_append, List.mem_singleton, or_and_right, exists_or,
    exists_eq_left]

/-- No reader is started for a client that was authenticated, but the second one. -/
theorem TcpServer.Awaits.before (h : after.Awaits uuid) (hregistered : server.Registered settings)
    (hmoved : server.Moved uuid) (hstep : server.step input = some (after, output)) :
    server.Awaits uuid := by
  obtain ⟨reader, hreader, hidentity, hlive⟩ := h
  cases step_change hstep with
  | startRuntime | connected | peer | admitted => exact ⟨reader, hreader, hidentity, hlive⟩
  | @ran op asked admits =>
    subst asked
    rcases List.mem_append.mp hreader with hold | hspawned
    · exact ⟨reader, hold, hidentity, hlive⟩
    · obtain ⟨task, htask, hspawn⟩ := List.mem_filterMap.mp hspawned
      obtain ⟨-, rfl⟩ := Reader.spawn_eq_some.mp hspawn
      by_cases hop : op = .checkNotAuthenticatedClients
      · subst hop
        obtain ⟨-, infos, -, hlookup⟩ :=
          ServerTcp.read_mem_checkNotAuthenticatedClients hregistered.configured htask
        rw [(Prod.mk.inj hidentity).1] at hlookup
        exact absurd (AssocMap.mem_of_lookup hlookup) hmoved.2
      · exact absurd htask (PortOp.read_notMem_run (step_external hstep) hop _ _ _ _)
  | @authenticated uuid' asked =>
    rcases List.mem_append.mp hreader with hold | hspawned
    · exact ⟨reader, hold, hidentity, hlive⟩
    · obtain ⟨task, htask, hspawn⟩ := List.mem_filterMap.mp hspawned
      obtain ⟨-, rfl⟩ := Reader.spawn_eq_some.mp hspawn
      cases hlookup : server.port.notAuthenticatedListening.lookup uuid' with
      | none =>
        rw [ServerPort.authenticateClient_none hlookup] at htask
        cases htask
      | some infos =>
        rw [ServerPort.authenticateClient_some hlookup] at htask
        cases hruntime : server.runtime with
        | none =>
          rw [hruntime] at htask
          cases htask
        | some runtime =>
          rw [hruntime] at htask
          have hstatus : reader.isAuthenticated = true := by
            injection List.mem_singleton.mp htask
          cases hstatus.symm.trans (Prod.mk.inj hidentity).2
  | @reader i reader' peer moved lookup stream moves =>
    rcases List.mem_or_eq_of_mem_set hreader with hold | rfl
    · exact ⟨reader, hold, hidentity, hlive⟩
    · refine ⟨reader', List.mem_of_getElem? lookup, hidentity, ?_⟩
      rcases moves.holds with hholds | ⟨hphase, -⟩
      · exact hholds.2
      · rw [hphase]
        exact nofun

theorem step_authenticates_mem (hfound : uuid ∈ server.port.notAuthenticatedListening)
    (h : server.step (.authenticateClient uuid) = some (after, output)) :
    uuid ∈ after.port.clientAuthenticated := by
  cases h
  obtain ⟨infos, hinfos⟩ := AssocMap.lookup_of_mem hfound
  rw [operated, ServerPort.authenticateClient_some hinfos]
  exact List.mem_append_right _ (List.mem_singleton_self uuid)

theorem step_authenticates (hregistered : server.Registered settings)
    (hfound : uuid ∈ server.port.notAuthenticatedListening)
    (h : server.step (.authenticateClient uuid) = some (after, output)) :
    after.Moved uuid ∧ uuid ∈ after.port.clientAuthenticated := by
  refine ⟨?_, step_authenticates_mem hfound h⟩
  cases h
  exact hregistered.moved hfound _

/-- Who was authenticated has moved, and is in the channel as long as its first reader has not
returned. -/
structure InChannel (ts : List TcpTransition) (server : TcpServer) : Prop where
  moved : ∀ uuid, Authenticates ts uuid → server.Moved uuid
  there : ∀ uuid, Authenticates ts uuid → server.Awaits uuid →
    uuid ∈ server.port.clientAuthenticated

theorem InChannel.step (h : InChannel ts t.pre) (hregistered : t.pre.Registered settings)
    (hone : t.post.OneReader) (hof : t.Of tcpMachine) (hfinds : FindsOwn t) :
    InChannel (ts ++ [t]) t.post := by
  obtain ⟨pre, input, output, post⟩ := t
  constructor
  · intro uuid hauthenticates
    rcases authenticates_snoc.mp hauthenticates with hbefore | ⟨rfl, hfound⟩
    · exact (h.moved uuid hbefore).step (step_change hof)
    · exact (step_authenticates hregistered hfound hof).1
  · intro uuid hauthenticates hafter
    rcases authenticates_snoc.mp hauthenticates with hbefore | ⟨rfl, hfound⟩
    · have hthere := h.there uuid hbefore
        (hafter.before hregistered (h.moved uuid hbefore) hof)
      cases step_channel hof with
      | kept channel => exact channel ▸ hthere
      | sent _ _ channel => exact channel ▸ List.mem_append_left _ hthere
      | @taken i reader uuid' rest asked lookup phase queue channel returned =>
        rw [queue] at hthere
        rw [channel]
        rcases List.mem_cons.mp hthere with rfl | hrest
        · -- the reader that takes it is the one that awaits it, and it returns
          have htarget := hfinds i reader uuid rest asked lookup phase queue
          have hself := returned htarget.symm
          obtain ⟨reader', hreader', hidentity, hlive⟩ := hafter
          obtain ⟨j, hj⟩ := List.getElem?_of_mem hreader'
          have hstatus := hregistered.asks reader (List.mem_of_getElem? lookup) (.inr phase)
          have hsame : reader'.identity = Reader.identity { reader with phase := .returned } :=
            hidentity.trans (Prod.ext htarget.symm hstatus.symm)
          have hij := hone.eq hj hself hsame
          subst hij
          cases hj.symm.trans hself
          exact absurd rfl hlive
        · exact hrest
    · exact (step_authenticates hregistered hfound hof).2

theorem Delivers.inherit (h : Delivers (ts ++ [t])) : Delivers ts where
  own t' ht' := h.own t' (List.mem_append_left _ ht')
  there before t' rest hsplit := by
    apply h.there before t' (rest ++ [t])
    rw [hsplit, List.append_assoc, List.cons_append]

theorem Delivers.snoc (h : Delivers ts) (hin : InChannel (ts ++ [t]) t.post)
    (hown : ∀ uuid,
      t.post.port.clientAuthenticated.count uuid < t.pre.port.clientAuthenticated.count uuid →
        ∃ i reader, t.input = .reader i ∧ t.pre.readers[i]? = some reader ∧
          reader.identity = (uuid, false)) : Delivers (ts ++ [t]) where
  own t' ht' := by
    rcases List.mem_append.mp ht' with hold | hlast
    · exact h.own t' hold
    · cases List.mem_singleton.mp hlast
      exact hown
  there before t' rest hsplit := by
    rcases List.eq_nil_or_concat' rest with rfl | ⟨rest, last, rfl⟩
    · obtain ⟨rfl, hlast⟩ := List.append_inj' hsplit rfl
      cases hlast
      exact hin.there
    · rw [← List.cons_append, ← List.append_assoc] at hsplit
      exact h.there before t' rest (List.append_inj' hsplit rfl).1

/-- A step that meets the condition takes nothing but the client's own. -/
theorem own_of_findsOwn (hregistered : t.pre.Registered settings) (hof : t.Of tcpMachine)
    (hfinds : FindsOwn t)
    (hless : t.post.port.clientAuthenticated.count uuid <
      t.pre.port.clientAuthenticated.count uuid) :
    ∃ i reader, t.input = .reader i ∧ t.pre.readers[i]? = some reader ∧
      reader.identity = (uuid, false) := by
  cases step_channel hof with
  | kept channel =>
    rw [channel] at hless
    exact absurd hless (Nat.lt_irrefl _)
  | sent _ _ channel =>
    rw [channel, List.count_append] at hless
    exact absurd hless (Nat.not_lt.mpr (Nat.le_add_right _ _))
  | @taken i reader uuid' rest asked lookup phase queue channel _ =>
    have htarget := hfinds i reader uuid' rest asked lookup phase queue
    have hstatus := hregistered.asks reader (List.mem_of_getElem? lookup) (.inr phase)
    have heq : uuid' = uuid := by
      by_contra hne
      rw [channel, queue, List.count_cons_of_ne hne] at hless
      exact Nat.lt_irrefl _ hless
    exact ⟨i, reader, asked, lookup, Prod.ext (htarget.trans heq) hstatus⟩

/-- A step that takes nothing but the client's own meets the condition. -/
theorem findsOwn_of_own (hof : t.Of tcpMachine)
    (hown : ∀ uuid,
      t.post.port.clientAuthenticated.count uuid < t.pre.port.clientAuthenticated.count uuid →
        ∃ i reader, t.input = .reader i ∧ t.pre.readers[i]? = some reader ∧
          reader.identity = (uuid, false)) : FindsOwn t := by
  intro i reader uuid rest hinput hreader hphase hqueue
  have hstep : t.pre.readerStep i = some (t.post, t.output) := by
    rw [Machine.Transition.Of, hinput] at hof
    exact hof
  have htaken := readerStep_drains hstep hreader hphase hqueue
  have hless : t.post.port.clientAuthenticated.count uuid <
      t.pre.port.clientAuthenticated.count uuid := by
    rw [htaken, hqueue, List.count_cons_self]
    exact Nat.lt_succ_self _
  obtain ⟨j, reader', hinput', hreader', hidentity⟩ := hown uuid hless
  cases hinput.symm.trans hinput'
  cases hreader.symm.trans hreader'
  exact (Prod.mk.inj hidentity).1

/-- A UUID reaches its reader exactly when no reader that drains the channel takes that of another
client. -/
theorem delivers_iff_findsOwn (h : tcpMachine.Run (.new settings) ts server) :
    Delivers ts ↔ ∀ t ∈ ts, FindsOwn t := by
  refine h.trace_iff InChannel (fun _ _ => Delivers.inherit) ⟨?_, ?_⟩ ?_ ?_
  · refine ⟨fun t ht => absurd ht List.not_mem_nil, fun before t rest hsplit => ?_⟩
    cases before <;> cases hsplit
  · refine ⟨?_, ?_⟩ <;> rintro uuid ⟨t, ht, -⟩ <;> cases ht
  · intro ts t hrun hin hof hdelivers hfinds
    have hregistered := registered_run hrun
    have hone := (oneReader_run hrun).step hregistered hof
    have hin' := hin.step hregistered hone hof hfinds
    exact ⟨hdelivers.snoc hin' fun uuid => own_of_findsOwn hregistered hof hfinds, hin'⟩
  · intro ts t _ _ hof hdelivers
    exact findsOwn_of_own hof (hdelivers.own t (List.mem_append_right _ List.mem_cons_self))

theorem TcpServer.Ready.start (settings : TcpSettingsServer) : (new settings).Ready :=
  fun _ _ _ _ hreader => absurd (List.mem_of_getElem? hreader) List.not_mem_nil

theorem TcpServer.Ready.findsOwn (h : t.pre.Ready) : FindsOwn t :=
  fun i reader uuid rest _ hreader hphase hqueue => h i reader uuid rest hreader hphase hqueue

/-- A step in its turn leaves the readers as they should be. -/
theorem TcpServer.Ready.step (h : t.pre.Ready) (hbusy : t.pre.Busy) (hof : t.Of tcpMachine)
    (hturn : InTurn t) : t.post.Ready := by
  intro j reader uuid rest hreader hphase hqueue
  have hbefore := draining_before hof hreader hphase
  -- a reader finds the UUID that was first before the step
  have hfirst : ∀ rest', t.pre.port.clientAuthenticated = uuid :: rest' →
      reader.target = uuid := by
    intro rest' hqueue'
    rcases hbefore with hold | ⟨hinput, before, hold, htarget, hdraining | hlocking⟩
    · exact h j reader uuid rest' hold hphase hqueue'
    · exact htarget.symm.trans (h j before uuid rest' hold hdraining hqueue')
    · exact htarget.symm.trans (hturn.locks j before uuid rest' hinput hold hlocking hqueue')
  cases step_channel hof with
  | kept channel => exact hfirst rest (channel.symm.trans hqueue)
  | @sent uuid' asked found channel =>
    have hold := hbefore.resolve_right fun hmoved => by cases asked.symm.trans hmoved.1
    rw [channel] at hqueue
    cases hpre : t.pre.port.clientAuthenticated with
    | nil =>
      rw [hpre] at hqueue
      cases hqueue
      exact hturn.sends uuid asked found hpre reader (List.mem_of_getElem? hold) hphase
    | cons first rest' =>
      rw [hpre] at hqueue
      cases hqueue
      exact hfirst rest' hpre
  | @taken i before uuid' rest' asked lookup phase queue channel returned =>
    have hself := returned (h i before uuid' rest' lookup phase queue).symm
    rcases hbefore with hold | ⟨hinput, -⟩
    · -- nobody else drains the channel
      obtain rfl := hbusy.eq lookup phase hold hphase
      cases hreader.symm.trans hself
      cases hphase
    · cases asked.symm.trans hinput
      cases hreader.symm.trans hself
      cases hphase

/-- A reader that has another client before it will take its UUID. -/
theorem TcpServer.Ready.before (h : t.post.Ready) (hbusy : t.pre.Busy) (hof : t.Of tcpMachine)
    (hfinds : FindsOwn t) : t.pre.Ready := by
  intro i reader uuid rest hreader hphase hqueue
  by_cases hinput : t.input = .reader i
  · exact hfinds i reader uuid rest hinput hreader hphase hqueue
  · have hkept := lookup_other hof hinput hreader
    cases step_channel hof with
    | kept channel => exact h i reader uuid rest hkept hphase (channel.trans hqueue)
    | @sent uuid' _ _ channel =>
      refine h i reader uuid (rest ++ [uuid']) hkept hphase ?_
      rw [channel, hqueue, List.cons_append]
    | taken asked lookup phase =>
      obtain rfl := hbusy.eq lookup phase hreader hphase
      exact absurd asked hinput

theorem inTurn_of_ready (h : t.post.Ready) (hof : t.Of tcpMachine) : InTurn t := by
  constructor
  · intro i reader uuid rest hinput hreader hphase hqueue
    have hstep : t.pre.readerStep i = some (t.post, t.output) := by
      rw [Machine.Transition.Of, hinput] at hof
      exact hof
    obtain ⟨reader', peer, moved, hreader', -, hmoves, hpost, -⟩ := readerStep_spec hstep
    cases hreader.symm.trans hreader'
    rw [hpost] at h
    cases hmoves with
    | lockedChannel =>
      exact h i { reader with phase := .draining } uuid rest (stepped_reader_self hreader) rfl
        hqueue
    | locked phase | drained phase | popped phase | handedOver phase =>
      cases hphase.symm.trans phase
    | took phase | panicked phase | finished phase | disconnected phase =>
      cases hphase.symm.trans phase
  · intro uuid hinput hfound hempty reader hmem hphase
    obtain ⟨i, hreader⟩ := List.getElem?_of_mem hmem
    have hkept := lookup_other hof (by rw [hinput]; exact nofun) hreader
    have hchannel : t.post.port.clientAuthenticated = [uuid] := by
      cases step_channel hof with
      | kept channel =>
        have hstep : t.pre.step (.authenticateClient uuid) = some (t.post, t.output) := by
          rw [Machine.Transition.Of, hinput] at hof
          exact hof
        have hthere := step_authenticates_mem hfound hstep
        rw [channel, hempty] at hthere
        cases hthere
      | sent asked _ channel =>
        cases hinput.symm.trans asked
        rw [channel, hempty, List.nil_append]
      | taken asked => cases hinput.symm.trans asked
    exact h i reader uuid [] hkept hphase hchannel

/-- The readers are as they should be if the next step, whichever it is, delivers. -/
theorem ready_of_delivers (h : tcpMachine.Run (.new settings) ts server)
    (hnext : ∀ t, t.pre = server → t.Of tcpMachine → Delivers (ts ++ [t])) : server.Ready := by
  intro i reader uuid rest hreader hphase hqueue
  have hpeer : ∃ peer, server.peers[reader.stream.id]? = some peer :=
    ⟨_, List.getElem?_eq_getElem ((registered_run h).stream_lt hreader)⟩
  obtain ⟨peer, hpeer⟩ := hpeer
  have hable : reader.Able peer server.channelHolder := by
    rw [Reader.Able, hphase]
    trivial
  obtain ⟨⟨after, output⟩, hstep⟩ :=
    Option.isSome_iff_exists.mp (isSome_readerStep hreader hpeer hable)
  have hof : Machine.Transition.Of tcpMachine ⟨server, .reader i, output, after⟩ := hstep
  have hfinds := (delivers_iff_findsOwn (h.snoc hof)).mp (hnext _ rfl hof)
  exact hfinds _ (List.mem_append_right _ List.mem_cons_self) i reader uuid rest rfl hreader
    hphase hqueue

/-- **When a UUID reaches its reader**, in a run and in whatever comes next: exactly when a reader
takes the lock of the channel only while the channel is empty or its own client comes first, and
the next client sent while a reader drains the empty channel is that reader's. -/
theorem delivers_iff (settings : TcpSettingsServer) (ts : List TcpTransition) (server : TcpServer)
    (h : tcpMachine.Run (.new settings) ts server) :
    (Delivers ts ∧ ∀ t, t.pre = server → t.Of tcpMachine → Delivers (ts ++ [t])) ↔
      ∀ t ∈ ts, InTurn t := by
  constructor
  · rintro ⟨hdelivers, hnext⟩
    refine h.history (fun ts server => (∀ t ∈ ts, FindsOwn t) → server.Ready →
      ∀ t ∈ ts, InTurn t) (fun _ _ t ht => absurd ht List.not_mem_nil) ?_
        ((delivers_iff_findsOwn h).mp hdelivers) (ready_of_delivers h hnext)
    intro ts t hrun ih hof hfinds hready
    obtain ⟨hbefore, hlast⟩ := List.forall_mem_append.mp hfinds
    have hfindsLast := hlast t (List.mem_singleton_self t)
    have hsame := ih hbefore (hready.before (busy_run hrun) hof hfindsLast)
    refine List.forall_mem_append.mpr ⟨hsame, ?_⟩
    exact List.forall_mem_singleton.mpr (inTurn_of_ready hready hof)
  · intro hturn
    have hown : server.Ready ∧ ∀ t ∈ ts, FindsOwn t := by
      refine h.history (fun ts server => (∀ t ∈ ts, InTurn t) →
        server.Ready ∧ ∀ t ∈ ts, FindsOwn t) ?_ ?_ hturn
      · exact fun _ => ⟨.start settings, fun t ht => absurd ht List.not_mem_nil⟩
      · intro ts t hrun ih hof hturn
        obtain ⟨hbefore, hlast⟩ := List.forall_mem_append.mp hturn
        obtain ⟨hready, hfinds⟩ := ih hbefore
        refine ⟨hready.step (busy_run hrun) hof (hlast t (List.mem_singleton_self t)), ?_⟩
        exact List.forall_mem_append.mpr ⟨hfinds, List.forall_mem_singleton.mpr hready.findsOwn⟩
    refine ⟨(delivers_iff_findsOwn h).mpr hown.2, ?_⟩
    rintro t rfl hof
    refine (delivers_iff_findsOwn (h.snoc hof)).mpr ?_
    exact List.forall_mem_append.mpr ⟨hown.2, List.forall_mem_singleton.mpr hown.1.findsOwn⟩

end Runs

/-- Two clients are authenticated one after the other. The reader of the second one takes the UUID
of the first one from the channel. -/
def stolenInputs : List TcpInput :=
  [.startRuntime, .connect .stream, .connect .stream, .portOp (.checkClientsConnected 7),
    .portOp (.checkClientsConnected 8), .portOp .checkNotAuthenticatedClients, .reader 0,
    .reader 0, .reader 1, .authenticateClient 7, .authenticateClient 8, .reader 0]

def stolenRun : List TcpTransition × TcpServer :=
  (tcpMachine.exec (.new .default) stolenInputs).getD ([], .new .default)

theorem run_stolenRun : tcpMachine.Run (.new .default) stolenRun.1 stolenRun.2 := by
  have hexec : tcpMachine.exec (.new .default) stolenInputs = some stolenRun := rfl
  exact .of_exec hexec

theorem delivers_stolenRun :
    (Delivers stolenRun.1 ∧ ∀ t, t.pre = stolenRun.2 → t.Of tcpMachine →
        Delivers (stolenRun.1 ++ [t])) ↔ ∀ t ∈ stolenRun.1, InTurn t :=
  delivers_iff .default _ _ run_stolenRun

/-- The first client was authenticated, its reader has not returned, and its UUID is gone. -/
theorem stolenRun_lost :
    ¬∀ ts server, tcpMachine.Run (.new .default) ts server → Delivers ts := by
  intro h
  have hlast : stolenRun.1 = stolenRun.1.take 11 ++ [stolenRun.1.get ⟨11, by decide⟩] := rfl
  have hauthenticates : Authenticates stolenRun.1 7 :=
    ⟨stolenRun.1.get ⟨9, by decide⟩, List.get_mem _ _, rfl, AssocMap.mem_of_lookup rfl⟩
  have hawaits : stolenRun.2.Awaits 7 :=
    ⟨stolenRun.2.readers.get ⟨1, by decide⟩, List.get_mem _ _, rfl, by decide⟩
  rw [hlast] at hauthenticates
  have hthere := (h _ _ run_stolenRun).there _ _ [] hlast 7 hauthenticates hawaits
  revert hthere
  decide

end Inator
