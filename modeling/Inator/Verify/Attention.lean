import Inator.Lib.LeadsTo
import Inator.Verify.Admission
import Inator.Verify.Holders
import Inator.Verify.Network
import Inator.Verify.Orphans

/-! # A stream that is open is read

The readers of a server wait for two locks: that of their own stream, which a reader keeps until
it returns, and that of the channel of the authenticated clients, which all those that were
started before authentication take in each turn of their loops. Nobody waits for ever, if the
runtime and the locks are fair and the channel is not filled again and again: the bytes that come
are taken, whichever reader has the stream (`Attentive.reads`). A reader comes to each stream, if
the two operations that admit clients are called again and again (`Attentive.taken`). -/

namespace Inator
open Machine Temporal Filter TcpServer

/-! ## What a reader does -/

/-- A reader that finds a byte takes it. -/
theorem Reader.Moves.takes {i : Nat} {reader : Reader} {peer : Peer} {port : ServerPort}
    {channelHolder : Option Nat} {moved : ReaderStep} {state : Framing.State UInt8}
    (h : reader.Moves i peer port channelHolder moved) (hphase : reader.phase = .reading state)
    (harrived : peer.arrived ≠ []) :
    moved.peer.consumed.length = peer.consumed.length + 1 := by
  cases h with
  | took | panicked | finished => exact List.length_append
  | disconnected _ arrived => exact absurd arrived harrived
  | locked phase | lockedChannel phase | drained phase | popped phase | handedOver phase =>
    cases hphase.symm.trans phase

theorem Reader.loopStart_holds (reader : Reader) :
    reader.loopStart ≠ .locking ∧ reader.loopStart ≠ .returned := by
  unfold loopStart
  cases reader.isAuthenticated <;> exact ⟨nofun, nofun⟩

/-- Only a reader that drains the channel takes from it. -/
theorem Reader.Moves.clientAuthenticated {i : Nat} {reader : Reader} {peer : Peer}
    {port : ServerPort} {channelHolder : Option Nat} {moved : ReaderStep}
    (h : reader.Moves i peer port channelHolder moved) (hphase : reader.phase ≠ .draining) :
    moved.port.clientAuthenticated = port.clientAuthenticated := by
  cases h with
  | popped phase | handedOver phase => exact absurd phase hphase
  | locked | lockedChannel | drained | took | panicked | finished | disconnected => rfl

/-- No reader takes up a client. -/
theorem Reader.Moves.clientConnected {i : Nat} {reader : Reader} {peer : Peer} {port : ServerPort}
    {channelHolder : Option Nat} {moved : ReaderStep}
    (h : reader.Moves i peer port channelHolder moved) :
    moved.port.clientConnected = port.clientConnected := by
  cases h with
  | locked | lockedChannel | drained | popped | handedOver => rfl
  | took | panicked | finished | disconnected => rfl

namespace TcpServer
variable {settings : TcpSettingsServer} {server after : TcpServer} {input : TcpInput}
  {output : TcpOutput}

/-! ## Whom the server hears -/

/-- The client is authenticated, or it is not yet and its entry is as `p` says. -/
def Has (server : TcpServer) (p : ListeningInfos → Prop) (uuid : Uuid) : Prop :=
  uuid ∈ server.port.listeningClients ∨
    ∃ infos, server.port.notAuthenticatedListening.lookup uuid = some infos ∧ p infos

/-- A reader was started for the client. -/
def Heard (server : TcpServer) (uuid : Uuid) : Prop := server.Has (·.listening = true) uuid

/-- Only a client whose stream has ended is reported. -/
def EndsFirst (server : TcpServer) : Prop :=
  ∀ notification ∈ server.port.clientDisconnected, ∀ (stream : Stream) (peer : Peer),
    (notification.1, stream) ∈ server.issued → server.peers[stream.id]? = some peer →
      peer.closed = true

theorem endsFirst_start (settings : TcpSettingsServer) : (started settings).EndsFirst := by
  intro notification h
  cases h

/-- What leaves the clients, their streams and the notifications as they are. -/
theorem EndsFirst.kept (h : server.EndsFirst)
    (hqueue : after.port.clientDisconnected ⊆ server.port.clientDisconnected)
    (hissued : after.issued = server.issued) (hpeers : after.peers = server.peers) :
    after.EndsFirst := by
  intro notification hnotification stream peer hstream hpeer
  rw [hissued] at hstream
  rw [hpeers] at hpeer
  exact h notification (hqueue hnotification) stream peer hstream hpeer

theorem EndsFirst.stepped (h : server.EndsFirst) (hregistered : server.Registered settings)
    {i : Nat} {reader : Reader} {peer : Peer} {moved : ReaderStep}
    (hreader : server.readers[i]? = some reader)
    (hpeer : server.peers[reader.stream.id]? = some peer)
    (hmoves : reader.Moves i peer server.port server.channelHolder moved) :
    (server.stepped i reader moved).EndsFirst := by
  have hclosed := hmoves.bytes.2
  intro notification hnotification stream peer' hstream hpeer'
  have hissued := (hregistered.readers reader (List.mem_of_getElem? hreader)).1
  have hold : notification ∈ server.port.clientDisconnected → peer'.closed = true := by
    intro hbefore
    rcases of_getElem?_set hpeer' with ⟨hid, rfl⟩ | ⟨-, hother⟩
    · rw [hclosed]
      exact h notification hbefore stream peer hstream (hid ▸ hpeer)
    · exact h notification hbefore stream peer' hstream hother
  change notification ∈ moved.port.clientDisconnected at hnotification
  cases hmoves with
  | disconnected phase arrived closed =>
    rcases List.mem_append.mp hnotification with hbefore | hnew
    · exact hold hbefore
    · -- the reader announces its own client
      rw [List.mem_singleton.mp hnew] at hstream
      obtain ⟨-, rfl⟩ := hregistered.unique hstream hissued (.inl rfl)
      rcases of_getElem?_set hpeer' with ⟨-, rfl⟩ | ⟨hne, -⟩
      · exact closed
      · exact absurd rfl hne
  | locked | lockedChannel | drained | took | panicked => exact hold hnotification
  | popped | handedOver | finished => exact hold hnotification

theorem EndsFirst.step (h : server.EndsFirst) (hregistered : server.Registered settings)
    (hchange : server.Change input after output) : after.EndsFirst := by
  cases hchange with
  | startRuntime => exact h.kept (List.Subset.refl _) rfl rfl
  | ran _ admits =>
    exact h.kept (PortOp.run_keeps (admits_eq_none.mp admits)).clientDisconnected rfl rfl
  | @admitted newUuid stream rest fresh queue =>
    intro notification hnotification stream' peer hstream hpeer
    rcases List.mem_cons.mp hstream with heq | hissued
    · cases heq
      exact absurd (hregistered.notified notification hnotification) fresh
    · exact h notification hnotification stream' peer hissued hpeer
  | authenticated =>
    exact h.kept (server.port.authenticateClient_keeps _ _).clientDisconnected rfl rfl
  | connected =>
    intro notification hnotification stream peer hstream hpeer
    rcases accept_peer hpeer with hold | ⟨hid, -⟩
    · exact h notification hnotification stream peer hstream hold
    · have hknown := hregistered.known _ (List.mem_append_left _ (List.mem_map_of_mem hstream))
      exact absurd hid hknown.ne
  | @peer id before peer lookup opened consumed holder =>
    intro notification hnotification stream peer' hstream hpeer'
    rcases of_getElem?_set hpeer' with ⟨hid, -⟩ | ⟨-, hold⟩
    · have hclosed := h notification hnotification stream before hstream (hid ▸ lookup)
      cases opened.symm.trans hclosed
    · exact h notification hnotification stream peer' hstream hold
  | reader lookup stream moves => exact h.stepped hregistered lookup stream moves

/-- **A client that nobody reports stays.** -/
theorem Has.step {p : ListeningInfos → Prop} {uuid : Uuid} (h : server.Has p uuid)
    (hmark : ∀ infos, p infos → p { infos with listening := true })
    (hregistered : server.Registered settings)
    (hnone : ∀ isAuthenticated, (uuid, isAuthenticated) ∉ server.port.clientDisconnected)
    (hchange : server.Change input after output) : after.Has p uuid := by
  cases hchange with
  | startRuntime | connected | peer => exact h
  | @ran op asked admits =>
    have heffect := op.run_effect server.port server.runtime
    simp only [Has, operated]
    generalize (op.run server.port server.runtime).1 = port at heffect
    cases heffect with
    | quiet _ _ _ _ listening waiting =>
      rw [listening, waiting]
      exact h
    | marked =>
      refine h.imp_right ?_
      rintro ⟨infos, hlookup, hp⟩
      refine ⟨{ infos with listening := true }, ?_, hmark infos hp⟩
      rw [AssocMap.lookup_mapVals, hlookup]
      rfl
    | @disconnected uuid' rest popped =>
      have hne : uuid ≠ uuid' := by
        rintro rfl
        exact hnone true (popped ▸ List.mem_cons_self)
      exact h.imp_left fun hmem => AList.mem_erase.mpr ⟨hne, hmem⟩
    | @disconnectedWaiting uuid' rest popped =>
      have hne : uuid ≠ uuid' := by
        rintro rfl
        exact hnone false (popped ▸ List.mem_cons_self)
      refine h.imp_right ?_
      rintro ⟨infos, hlookup, hlistening⟩
      exact ⟨infos, (AList.lookup_erase_ne hne).trans hlookup, hlistening⟩
    | admitted popped =>
      rw [admits_eq_none.mp admits _ rfl] at popped
      cases popped
  | @admitted newUuid stream rest fresh queue =>
    refine h.imp_right ?_
    rintro ⟨infos, hlookup, hlistening⟩
    have hne : uuid ≠ newUuid := by
      rintro rfl
      exact fresh (List.mem_map_of_mem (hregistered.entries uuid infos (.inl hlookup)))
    exact ⟨infos, (AList.lookup_insert_ne hne).trans hlookup, hlistening⟩
  | @authenticated uuid' asked =>
    simp only [Has, operated]
    cases hinfos : server.port.notAuthenticatedListening.lookup uuid' with
    | none =>
      rw [ServerPort.authenticateClient_none hinfos]
      exact h
    | some infos =>
      rw [ServerPort.authenticateClient_some hinfos]
      by_cases huuid : uuid = uuid'
      · exact .inl ((AList.mem_insert _).mpr (.inl huuid))
      · refine h.imp (fun hmem => (AList.mem_insert _).mpr (.inr hmem)) ?_
        rintro ⟨infos', hlookup, hlistening⟩
        exact ⟨infos', (AList.lookup_erase_ne huuid).trans hlookup, hlistening⟩
  | reader lookup stream moves =>
    obtain ⟨hlistening, hwaiting⟩ := moves.maps
    simp only [Has, TcpServer.stepped, hlistening, hwaiting]
    exact h

/-- The client of the stream was given out, and is in one of the maps. -/
def Admitted (server : TcpServer) (stream : Stream) : Prop :=
  ∃ uuid, (uuid, stream) ∈ server.issued ∧ server.Has (fun _ => True) uuid

/-- All clients that wait to be authenticated are heard then. -/
theorem Has.marked {p : ListeningInfos → Prop} {uuid : Uuid} (h : server.Has p uuid)
    (hstep : server.step (.portOp .checkNotAuthenticatedClients) = some (after, output)) :
    after.Heard uuid := by
  change (if PortOp.checkNotAuthenticatedClients.internal then none
    else server.portOp .checkNotAuthenticatedClients) = some (after, output) at hstep
  unfold portOp at hstep
  split at hstep
  · cases hstep
  · split at hstep
    · cases hstep
    · cases hstep
      refine h.imp_right ?_
      rintro ⟨infos, hlookup, -⟩
      refine ⟨{ infos with listening := true }, ?_, rfl⟩
      exact (AssocMap.lookup_mapVals ..).trans (congrArg _ hlookup)

/-- What was accepted waits until it is given out. -/
theorem queue_step (h : server.step input = some (after, output)) {stream : Stream}
    (hqueue : stream ∈ server.port.clientConnected) :
    after.Admitted stream ∨ stream ∈ after.port.clientConnected ∧
      after.port.clientConnected.idxOf stream ≤ server.port.clientConnected.idxOf stream ∧
        ((∃ newUuid, input = .portOp (.checkClientsConnected newUuid)) →
          after.port.clientConnected.idxOf stream < server.port.clientConnected.idxOf stream) := by
  have hkept : after.port.clientConnected = server.port.clientConnected →
      (∀ newUuid, input ≠ .portOp (.checkClientsConnected newUuid)) →
        stream ∈ after.port.clientConnected ∧
          after.port.clientConnected.idxOf stream ≤ server.port.clientConnected.idxOf stream ∧
            ((∃ newUuid, input = .portOp (.checkClientsConnected newUuid)) →
              after.port.clientConnected.idxOf stream <
                server.port.clientConnected.idxOf stream) := by
    intro hsame hother
    rw [hsame]
    exact ⟨hqueue, le_rfl, fun ⟨newUuid, heq⟩ => absurd heq (hother newUuid)⟩
  cases input with
  | startRuntime =>
    cases h
    exact .inr (hkept rfl (by rintro _ ⟨⟩))
  | authenticateClient uuid =>
    cases h
    refine .inr (hkept (server.port.authenticateClient_clientConnected _ _) ?_)
    rintro _ ⟨⟩
  | connect kind =>
    cases h
    refine .inr ⟨List.mem_append_left _ hqueue, ?_, fun ⟨newUuid, heq⟩ => by cases heq⟩
    exact (List.idxOf_append_of_mem hqueue).le
  | send | close | fail =>
    simp only [step, modifyPeer] at h
    split at h
    · cases h
    · split at h
      · cases h
      · cases h
        exact .inr (hkept rfl (by rintro _ ⟨⟩))
  | reader i =>
    obtain ⟨reader, peer, moved, -, -, hmoves, rfl, -⟩ := readerStep_spec h
    exact .inr (hkept hmoves.clientConnected (by rintro _ ⟨⟩))
  | portOp op =>
    simp only [step] at h
    split at h
    · cases h
    · unfold portOp at h
      split at h
      · cases h
      · cases h
        by_cases hop : ∀ newUuid, op ≠ .checkClientsConnected newUuid
        · refine .inr (hkept (PortOp.run_clientConnected hop _ _) fun newUuid heq => ?_)
          cases heq
          exact hop newUuid rfl
        · push Not at hop
          obtain ⟨newUuid, rfl⟩ := hop
          obtain ⟨first, rest, hfirst⟩ := List.exists_cons_of_ne_nil (List.ne_nil_of_mem hqueue)
          have hrun : (PortOp.checkClientsConnected newUuid).run server.port server.runtime =
              ({ server.port with
                clientConnected := rest
                notAuthenticatedListening :=
                  server.port.notAuthenticatedListening.insert newUuid ⟨first, false⟩ }, []) := by
            simp only [PortOp.run, ServerPort.checkClientsConnected, hfirst]
          have hadmits :
              server.admits (.checkClientsConnected newUuid) = some (newUuid, first) := by
            simp only [admits, hfirst, List.head?_cons, Option.map_some]
          simp only [operated, hrun, hadmits]
          rw [hfirst] at hqueue ⊢
          by_cases heq : first = stream
          · subst heq
            refine .inl ⟨newUuid, List.mem_cons_self, .inr ⟨⟨first, false⟩, ?_, trivial⟩⟩
            exact AList.lookup_insert _
          · refine .inr ⟨(List.mem_cons.mp hqueue).resolve_left (Ne.symm heq), ?_⟩
            rw [List.idxOf_cons_ne _ heq]
            exact ⟨Nat.le_succ _, fun _ => Nat.lt_succ_self _⟩

/-- A step accepts a client, or leaves the streams as many as they are. -/
theorem Change.peers (h : server.Change input after output) :
    after.peers.length = server.peers.length ∨ ∃ kind, after = server.accept kind := by
  cases h with
  | startRuntime | ran | admitted | authenticated => exact .inl rfl
  | @connected kind => exact .inr ⟨kind, rfl⟩
  | peer | reader => exact .inl List.length_set

/-! ## One step -/

/-- What leaves the channel alone. -/
theorem channel_other (h : server.step input = some (after, output))
    (hnobody : ∀ uuid, input ≠ .authenticateClient uuid)
    (hreader : ∀ (i : Nat) (reader : Reader), input = .reader i →
      server.readers[i]? = some reader → reader.phase ≠ .draining) :
    after.port.clientAuthenticated = server.port.clientAuthenticated := by
  cases input with
  | startRuntime | connect =>
    cases h
    rfl
  | portOp op =>
    simp only [step] at h
    split at h
    · cases h
    · unfold portOp at h
      split at h
      · cases h
      · cases h
        exact PortOp.run_clientAuthenticated _ _ _
  | authenticateClient uuid => exact absurd rfl (hnobody uuid)
  | send | close | fail =>
    simp only [step, modifyPeer] at h
    split at h
    · cases h
    · split at h
      · cases h
      · cases h
        rfl
  | reader i =>
    obtain ⟨reader, peer, moved, hlookup, -, hmoves, rfl, -⟩ := readerStep_spec h
    exact hmoves.clientAuthenticated (hreader i reader rfl hlookup)

/-- A step takes bytes from a stream, or leaves there those that have come, or ends it. -/
theorem peer_step (h : server.step input = some (after, output)) {id : Nat} {peer : Peer}
    (hpeer : server.peers[id]? = some peer) :
    ∃ peer', after.peers[id]? = some peer' ∧
      (peer'.closed = true ∨ peer.consumed.length < peer'.consumed.length ∨
        peer'.consumed = peer.consumed ∧ peer.arrived <+: peer'.arrived) := by
  have hkept : after.peers = server.peers → ∃ peer', after.peers[id]? = some peer' ∧
      (peer'.closed = true ∨ peer.consumed.length < peer'.consumed.length ∨
        peer'.consumed = peer.consumed ∧ peer.arrived <+: peer'.arrived) := by
    intro hsame
    exact ⟨peer, hsame ▸ hpeer, .inr (.inr ⟨rfl, List.prefix_rfl⟩)⟩
  have hset : ∀ {id' : Nat} {before peer' : Peer}, server.peers[id']? = some before →
      after.peers = server.peers.set id' peer' →
        (id = id' → peer'.closed = true ∨ before.consumed.length < peer'.consumed.length ∨
          peer'.consumed = before.consumed ∧ before.arrived <+: peer'.arrived) →
          ∃ peer', after.peers[id]? = some peer' ∧
            (peer'.closed = true ∨ peer.consumed.length < peer'.consumed.length ∨
              peer'.consumed = peer.consumed ∧ peer.arrived <+: peer'.arrived) := by
    intro id' before peer' hbefore hpeers hmoved
    by_cases hid : id = id'
    · subst hid
      cases hpeer.symm.trans hbefore
      refine ⟨peer', ?_, hmoved rfl⟩
      rw [hpeers, List.getElem?_set_self (List.getElem?_eq_some_iff.mp hpeer).1]
    · refine ⟨peer, ?_, .inr (.inr ⟨rfl, List.prefix_rfl⟩)⟩
      rw [hpeers, List.getElem?_set_ne (Ne.symm hid)]
      exact hpeer
  cases input with
  | startRuntime | authenticateClient =>
    cases h
    exact hkept rfl
  | portOp op =>
    simp only [step] at h
    split at h
    · cases h
    · unfold portOp at h
      split at h
      · cases h
      · cases h
        exact hkept rfl
  | connect kind =>
    cases h
    refine ⟨peer, ?_, .inr (.inr ⟨rfl, List.prefix_rfl⟩)⟩
    rw [accept, List.getElem?_append_left (List.getElem?_eq_some_iff.mp hpeer).1]
    exact hpeer
  | send id' bytes =>
    simp only [step, modifyPeer] at h
    split at h
    · cases h
    · rename_i before hbefore
      split at h
      · cases h
      · cases h
        exact hset hbefore rfl fun _ => .inr (.inr ⟨rfl, List.prefix_append _ _⟩)
  | close id' | fail id' =>
    simp only [step, modifyPeer] at h
    split at h
    · cases h
    · rename_i before hbefore
      split at h
      · cases h
      · cases h
        exact hset hbefore rfl fun _ => .inl rfl
  | reader i =>
    obtain ⟨reader, before, moved, -, hbefore, hmoves, rfl, -⟩ := readerStep_spec h
    refine hset hbefore rfl fun _ => ?_
    cases hmoves with
    | took | panicked | finished =>
      refine .inr (.inl ?_)
      rw [List.length_append]
      exact Nat.lt_succ_self _
    | locked | lockedChannel | drained | popped | handedOver | disconnected =>
      exact .inr (.inr ⟨rfl, List.prefix_rfl⟩)

end TcpServer

/-! ## The course of a server -/

section Course
variable {settings : TcpSettingsServer}

/-- Each reader that can again and again take its step does so, the clients that wait to be
authenticated are heard again and again, and from some time on nobody is authenticated. -/
structure Diligent (c : Course tcpMachine (started settings)) : Prop where
  readers : ∀ i, StronglyFair (fun n => ((c.state n).readerStep i).isSome)
    fun n => c.input n = some (.reader i)
  listens : ∃ᶠ n in atTop, c.input n = some (.portOp .checkNotAuthenticatedClients)
  settles : ∀ᶠ n in atTop, ∀ uuid, c.input n ≠ some (.authenticateClient uuid)

/-- What holds at each time of the course. -/
structure Orderly (settings : TcpSettingsServer) (server : TcpServer) : Prop where
  registered : server.Registered settings
  locks : server.Locks
  attended : server.Attended (frameHeader settings.bytes settings.order)
  busy : server.Busy
  endsFirst : server.EndsFirst

theorem orderly_run {ts : List TcpTransition} {server : TcpServer}
    (h : tcpMachine.Run (started settings) ts server) : Orderly settings server := by
  have hstarted := run_of_started h
  have hends : server.EndsFirst := by
    refine h.history (fun _ server => server.EndsFirst) (endsFirst_start settings) ?_
    intro ts t hrun hbefore hof
    exact hbefore.step (registered_run (run_of_started hrun)) (step_change hof)
  exact ⟨registered_run hstarted, (handsOver_run hstarted).1, attended_run h, busy_run hstarted,
    hends⟩

namespace Diligent
variable {c : Course tcpMachine (started settings)} {n j : Nat} {who : Reader}

theorem orderly (c : Course tcpMachine (started settings)) (n : Nat) :
    Orderly settings (c.state n) :=
  orderly_run (c.run n)

/-- Task `j` is the reader `who`, in this phase. -/
def At (c : Course tcpMachine (started settings)) (j : Nat) (who : Reader) (phase : ReaderPhase)
    (n : Nat) : Prop :=
  (c.state n).readers[j]? = some { who with phase := phase }

theorem at_of {reader : Reader} {phase : ReaderPhase}
    (hreader : (c.state n).readers[j]? = some reader) (hphase : reader.phase = phase) :
    At c j reader phase n := by
  subst hphase
  exact hreader

/-- Nobody is authenticated any more. -/
def Calm (c : Course tcpMachine (started settings)) (n : Nat) : Prop :=
  ∀ m, n ≤ m → ∀ uuid, c.input m ≠ some (.authenticateClient uuid)

theorem calm_next (h : Calm c n) : Calm c (n + 1) := fun m hm => h m (by omega)

theorem stays {phase : ReaderPhase} (hother : c.input n ≠ some (.reader j))
    (hat : At c j who phase n) : At c j who phase (n + 1) := by
  rcases c.step n with ⟨-, hsame⟩ | ⟨input, output, hinput, hstep⟩
  · rw [At, hsame]
    exact hat
  · exact lookup_other hstep (fun heq => hother (heq ▸ hinput)) hat

/-- The step of a reader. -/
theorem moves {phase : ReaderPhase} (hinput : c.input n = some (.reader j))
    (hat : At c j who phase n) : ∃ peer moved,
      (c.state n).peers[who.stream.id]? = some peer ∧
        Reader.Moves j { who with phase := phase } peer (c.state n).port
          (c.state n).channelHolder moved ∧
        (c.state (n + 1)).peers[who.stream.id]? = some moved.peer ∧
          (c.state (n + 1)).channelHolder = moved.channelHolder ∧
            (c.state (n + 1)).port = moved.port ∧ At c j who moved.phase (n + 1) := by
  rcases c.step n with ⟨hidle, -⟩ | ⟨input, output, hinput', hstep⟩
  · cases hinput.symm.trans hidle
  · cases hinput.symm.trans hinput'
    obtain ⟨reader, peer, moved, hreader, hpeer, hmoves, hafter, -⟩ := readerStep_spec hstep
    cases hat.symm.trans hreader
    refine ⟨peer, moved, hpeer, hmoves, ?_, ?_, ?_, ?_⟩
    · rw [hafter, stepped, List.getElem?_set_self (List.getElem?_eq_some_iff.mp hpeer).1]
    · rw [hafter, stepped]
    · rw [hafter, stepped]
    · rw [At, hafter]
      exact stepped_reader_self hreader

theorem moved_next {uuid : Uuid} (h : (c.state n).Moved uuid) : (c.state (n + 1)).Moved uuid := by
  rcases c.step n with ⟨-, hsame⟩ | ⟨input, output, -, hstep⟩
  · rw [hsame]
    exact h
  · exact h.step (step_change hstep)

theorem issued_next {client : Uuid × Stream} (hissued : client ∈ (c.state n).issued) :
    client ∈ (c.state (n + 1)).issued := by
  rcases c.step n with ⟨-, hsame⟩ | ⟨input, output, -, hstep⟩
  · rw [hsame]
    exact hissued
  · exact (step_change hstep).issued hissued

/-- A reader that need not wait can take its step. -/
theorem able {phase : ReaderPhase} {peer : Peer} (hat : At c j who phase n)
    (hpeer : (c.state n).peers[who.stream.id]? = some peer)
    (hable : Reader.Able { who with phase := phase } peer (c.state n).channelHolder) :
    ((c.state n).readerStep j).isSome :=
  isSome_readerStep hat hpeer hable

/-! ### The lock of the channel -/

/-- The reader has found the channel empty, or its own client in it. -/
def Drained (c : Course tcpMachine (started settings)) (j : Nat) (who : Reader) (n : Nat) : Prop :=
  (c.state n).channelHolder = none ∧
    (At c j who (.reading .start) n ∨ At c j who .returned n ∧ (c.state n).Moved who.target ∧
      ∀ peer, (c.state n).peers[who.stream.id]? = some peer → peer.holder = none)

/-- **A reader comes to the end of the channel.** -/
theorem drains (h : Diligent c) :
    LeadsTo (fun n => Calm c n ∧ At c j who .draining n) (Drained c j who) := by
  have hown : ∀ n, At c j who .draining n → c.input n = some (.reader j) →
      Drained c j who (n + 1) ∨ At c j who .draining (n + 1) ∧
        (c.state (n + 1)).port.clientAuthenticated.length <
          (c.state n).port.clientAuthenticated.length := by
    intro n hat hinput
    obtain ⟨peer, moved, hpeer, hmoves, hafter, hchannel, hport, hat'⟩ := moves hinput hat
    cases hmoves with
    | drained => exact .inl ⟨hchannel, .inl hat'⟩
    | handedOver phase queue =>
      refine .inl ⟨hchannel, .inr ⟨hat', moved_next ?_, fun peer' hpeer' => ?_⟩⟩
      · exact (orderly c n).attended.moved _ (queue ▸ List.mem_cons_self)
      · cases hafter.symm.trans hpeer'
        rfl
    | popped phase queue =>
      refine .inr ⟨hat', ?_⟩
      rw [hport, queue]
      simp only [ServerPort.receive, queue]
      exact Nat.lt_succ_self _
    | locked phase | lockedChannel phase | took phase | panicked phase | finished phase
    | disconnected phase => cases phase
  have hother : ∀ n, Calm c n → At c j who .draining n → c.input n ≠ some (.reader j) →
      (c.state (n + 1)).port.clientAuthenticated = (c.state n).port.clientAuthenticated := by
    intro n hcalm' hat hinput
    rcases c.step n with ⟨-, hsame⟩ | ⟨input, output, hinput', hstep⟩
    · rw [hsame]
    · refine channel_other hstep (fun uuid heq => hcalm' n le_rfl uuid (heq ▸ hinput')) ?_
      rintro i reader rfl hreader hphase
      have hbusy := (orderly c n).busy
      have hi := hbusy.draining i reader hreader hphase
      have hj := hbusy.draining j _ hat rfl
      cases hi.symm.trans hj
      exact hinput hinput'
  refine .descends (fun n => (c.state n).port.clientAuthenticated.length) (h.readers j).weakly
    ?_ ?_ ?_
  · rintro n ⟨-, hat⟩ -
    exact able hat (List.getElem?_eq_getElem ((orderly c n).registered.stream_lt hat)) trivial
  · rintro n ⟨hcalm', hat⟩ -
    by_cases hinput : c.input n = some (.reader j)
    · exact (hown n hat hinput).imp_right fun hnext =>
        ⟨⟨calm_next hcalm', hnext.1⟩, hnext.2.le⟩
    · refine .inr ⟨⟨calm_next hcalm', stays hinput hat⟩, ?_⟩
      rw [hother n hcalm' hat hinput]
  · rintro n ⟨hcalm', hat⟩ - hinput
    exact (hown n hat hinput).imp_right fun hnext => ⟨⟨calm_next hcalm', hnext.1⟩, hnext.2⟩

/-- The lock of the channel is free again and again. -/
theorem channelFrees (h : Diligent c) :
    LeadsTo (Calm c) fun n => (c.state n).channelHolder = none := by
  intro n hcalm
  cases hholder : (c.state n).channelHolder with
  | none => exact ⟨n, le_rfl, hholder⟩
  | some i =>
    obtain ⟨reader, hreader, hphase⟩ := (orderly c n).busy.channel i hholder
    have hat : At c i reader .draining n := at_of hreader hphase
    obtain ⟨m, hm, hfree, -⟩ := h.drains n ⟨hcalm, hat⟩
    exact ⟨m, hm, hfree⟩

/-- **A reader that waits for the channel takes its lock.** -/
theorem channelLocks (h : Diligent c) :
    LeadsTo (fun n => Calm c n ∧ At c j who .lockingChannel n)
      fun n => Calm c n ∧ At c j who .draining n := by
  have hown : ∀ n, At c j who .lockingChannel n → c.input n = some (.reader j) →
      At c j who .draining (n + 1) := by
    intro n hat hinput
    obtain ⟨peer, moved, -, hmoves, -, -, -, hat'⟩ := moves hinput hat
    cases hmoves with
    | lockedChannel => exact hat'
    | locked phase | drained phase | popped phase | handedOver phase | took phase | panicked phase
    | finished phase | disconnected phase => cases phase
  have hnext : ∀ n, Calm c n ∧ At c j who .lockingChannel n →
      (Calm c (n + 1) ∧ At c j who .draining (n + 1)) ∨
        Calm c (n + 1) ∧ At c j who .lockingChannel (n + 1) := by
    rintro n ⟨hcalm, hat⟩
    by_cases hinput : c.input n = some (.reader j)
    · exact .inl ⟨calm_next hcalm, hown n hat hinput⟩
    · exact .inr ⟨calm_next hcalm, stays hinput hat⟩
  have hfree : LeadsTo (fun n => (Calm c n ∧ At c j who .lockingChannel n) ∧ Calm c n)
      fun n => (Calm c n ∧ At c j who .draining n) ∨
        (Calm c n ∧ At c j who .lockingChannel n) ∧ (c.state n).channelHolder = none :=
    .along hnext h.channelFrees
  refine .ensures_strongly (h.readers j) ?_ (fun n hP _ => hnext n hP) ?_
  · rintro n ⟨hcalm, hat⟩
    obtain ⟨m, hm, hdone | ⟨⟨-, hat'⟩, hfree⟩⟩ := hfree n ⟨⟨hcalm, hat⟩, hcalm⟩
    · exact ⟨m, hm, .inl hdone⟩
    · have hpeer := List.getElem?_eq_getElem ((orderly c m).registered.stream_lt hat')
      exact ⟨m, hm, .inr (able hat' hpeer hfree)⟩
  · rintro n ⟨hcalm, hat⟩ - hinput
    exact ⟨calm_next hcalm, hown n hat hinput⟩

end Diligent

/-- The stream stays open, no size on it is refused, and clients that were accepted are taken up
again and again. -/
structure Attentive (c : Course tcpMachine (started settings)) (stream : Nat) : Prop
    extends Diligent c where
  opened : ∀ n peer, (c.state n).peers[stream]? = some peer → peer.closed = false
  whole : ∀ n peer, (c.state n).peers[stream]? = some peer →
    peer.Whole (frameHeader settings.bytes settings.order)
  admits : ∃ᶠ n in atTop, ∃ newUuid, c.input n = some (.portOp (.checkClientsConnected newUuid))

namespace Attentive
open Diligent
variable {c : Course tcpMachine (started settings)} {stream : Nat} {n m j k : Nat} {who : Reader}

/-- There are bytes to be taken from the stream, and `k` have been taken. -/
def Untaken (c : Course tcpMachine (started settings)) (stream k n : Nat) : Prop :=
  ∃ peer, (c.state n).peers[stream]? = some peer ∧ peer.consumed.length = k ∧ peer.arrived ≠ []

def Waits (c : Course tcpMachine (started settings)) (stream k n : Nat) : Prop :=
  Calm c n ∧ Untaken c stream k n

/-- More than `k` bytes have been taken from the stream. -/
def Past (c : Course tcpMachine (started settings)) (stream k n : Nat) : Prop :=
  ∃ peer, (c.state n).peers[stream]? = some peer ∧ k < peer.consumed.length

theorem untaken_next (h : Attentive c stream) (huntaken : Untaken c stream k n) :
    Past c stream k (n + 1) ∨ Untaken c stream k (n + 1) := by
  obtain ⟨peer, hpeer, hconsumed, harrived⟩ := huntaken
  rcases c.step n with ⟨-, hsame⟩ | ⟨input, output, -, hstep⟩
  · right
    refine ⟨peer, ?_, hconsumed, harrived⟩
    rw [hsame]
    exact hpeer
  · obtain ⟨peer', hpeer', hclosed | hmore | ⟨hsame, hprefix⟩⟩ := peer_step hstep hpeer
    · cases (h.opened (n + 1) peer' hpeer').symm.trans hclosed
    · exact .inl ⟨peer', hpeer', hconsumed ▸ hmore⟩
    · refine .inr ⟨peer', hpeer', hsame ▸ hconsumed, fun hempty => ?_⟩
      rw [hempty, List.prefix_nil] at hprefix
      exact harrived hprefix

theorem waits_next (h : Attentive c stream) (hwaits : Waits c stream k n) :
    Past c stream k (n + 1) ∨ Waits c stream k (n + 1) :=
  (h.untaken_next hwaits.2).imp_right fun huntaken => ⟨calm_next hwaits.1, huntaken⟩

/-- **A reader takes the bytes that are there.** -/
theorem takes (h : Attentive c stream) (hstream : who.stream.id = stream) :
    LeadsTo (fun n => Waits c stream k n ∧ ∃ state, At c j who (.reading state) n)
      (Past c stream k) := by
  have hown : ∀ n, Waits c stream k n → ∀ state, At c j who (.reading state) n →
      c.input n = some (.reader j) → Past c stream k (n + 1) := by
    rintro n ⟨-, peer, hpeer, hconsumed, harrived⟩ state hat hinput
    obtain ⟨peer', moved, hpeer', hmoves, hafter, -⟩ := moves hinput hat
    rw [hstream] at hpeer' hafter
    cases hpeer.symm.trans hpeer'
    exact ⟨moved.peer, hafter, by rw [hmoves.takes rfl harrived]; omega⟩
  refine .ensures (h.readers j).weakly ?_ ?_ ?_
  · rintro n ⟨⟨-, peer, hpeer, -, harrived⟩, state, hat⟩ -
    exact able hat (hstream ▸ hpeer) harrived
  · rintro n ⟨hwaits, state, hat⟩ -
    by_cases hinput : c.input n = some (.reader j)
    · exact .inl (hown n hwaits state hat hinput)
    · exact (h.waits_next hwaits).imp_right fun hwaits' => ⟨hwaits', state, stays hinput hat⟩
  · rintro n ⟨hwaits, state, hat⟩ - hinput
    exact hown n hwaits state hat hinput

/-! ### The lock of the stream -/

/-- A reader that asks the channel reads on, or finds its own client there. -/
theorem asks (h : Attentive c stream) (hstream : who.stream.id = stream) :
    LeadsTo (fun n => Waits c stream k n ∧ (At c j who .lockingChannel n ∨ At c j who .draining n))
      fun n => Past c stream k n ∨ Waits c stream k n ∧ (c.state n).Moved who.target ∧
        ∀ peer, (c.state n).peers[stream]? = some peer → peer.holder = none := by
  have hdrained : LeadsTo (fun n => Calm c n ∧ (At c j who .lockingChannel n ∨
      At c j who .draining n)) (Drained c j who) := by
    rintro n ⟨hcalm, hlocking | hdraining⟩
    · obtain ⟨m, hm, hdraining⟩ := h.channelLocks n ⟨hcalm, hlocking⟩
      obtain ⟨l, hl, hdrained⟩ := h.drains m hdraining
      exact ⟨l, hm.trans hl, hdrained⟩
    · exact h.drains n ⟨hcalm, hdraining⟩
  rintro n ⟨hwaits, hasks⟩
  obtain ⟨m, hm, hpast | ⟨hwaits', -, hreading | ⟨-, hmoved, hfree⟩⟩⟩ :=
    LeadsTo.along (fun n hwaits => h.waits_next (k := k) hwaits) hdrained n
      ⟨hwaits, hwaits.1, hasks⟩
  · exact ⟨m, hm, .inl hpast⟩
  · obtain ⟨l, hl, hpast⟩ := h.takes hstream m ⟨hwaits', .start, hreading⟩
    exact ⟨l, hm.trans hl, .inl hpast⟩
  · exact ⟨m, hm, .inr ⟨hwaits', hmoved, hstream ▸ hfree⟩⟩

/-- **The lock of the stream is given up**, or bytes are taken with it. -/
theorem frees (h : Attentive c stream) :
    LeadsTo (Waits c stream k) fun n => Past c stream k n ∨ Waits c stream k n ∧
      ∀ peer, (c.state n).peers[stream]? = some peer → peer.holder = none := by
  intro n hwaits
  obtain ⟨peer, hpeer, -, -⟩ := hwaits.2
  cases hholder : peer.holder with
  | none =>
    refine ⟨n, le_rfl, .inr ⟨hwaits, fun peer' hpeer' => ?_⟩⟩
    cases hpeer.symm.trans hpeer'
    exact hholder
  | some i =>
    obtain ⟨reader, hreader, hstream, hlocking, hreturned⟩ :=
      (orderly c n).busy.stream stream peer i hpeer hholder
    cases hphase : reader.phase with
    | locking => exact absurd hphase hlocking
    | returned => exact absurd hphase hreturned
    | lockingChannel | draining =>
      obtain ⟨m, hm, hend⟩ := h.asks (k := k) hstream n ⟨hwaits, by
        first
        | exact .inl (at_of hreader hphase)
        | exact .inr (at_of hreader hphase)⟩
      exact ⟨m, hm, hend.imp_right fun hfree => ⟨hfree.1, hfree.2.2⟩⟩
    | reading state =>
      obtain ⟨m, hm, hpast⟩ := h.takes hstream n ⟨hwaits, state, at_of hreader hphase⟩
      exact ⟨m, hm, .inl hpast⟩

/-- **A reader that waits for its stream takes the lock**, if no bytes are taken before. -/
theorem locks (h : Attentive c stream) (hstream : who.stream.id = stream) :
    LeadsTo (fun n => Waits c stream k n ∧ At c j who .locking n)
      fun n => Past c stream k n ∨ Waits c stream k n ∧ At c j who who.loopStart n := by
  have hown : ∀ n, At c j who .locking n → c.input n = some (.reader j) →
      At c j who who.loopStart (n + 1) := by
    intro n hat hinput
    obtain ⟨peer, moved, -, hmoves, -, -, -, hat'⟩ := moves hinput hat
    cases hmoves with
    | locked => exact hat'
    | lockedChannel phase | drained phase | popped phase | handedOver phase | took phase
    | panicked phase | finished phase | disconnected phase => cases phase
  have hnext : ∀ n, Waits c stream k n ∧ At c j who .locking n →
      (Past c stream k (n + 1) ∨ Waits c stream k (n + 1) ∧ At c j who who.loopStart (n + 1)) ∨
        Waits c stream k (n + 1) ∧ At c j who .locking (n + 1) := by
    rintro n ⟨hwaits, hat⟩
    rcases h.waits_next hwaits with hpast | hwaits'
    · exact .inl (.inl hpast)
    · by_cases hinput : c.input n = some (.reader j)
      · exact .inl (.inr ⟨hwaits', hown n hat hinput⟩)
      · exact .inr ⟨hwaits', stays hinput hat⟩
  have hfrees : LeadsTo (fun n => (Waits c stream k n ∧ At c j who .locking n) ∧
      Waits c stream k n) fun n =>
      (Past c stream k n ∨ Waits c stream k n ∧ At c j who who.loopStart n) ∨
        (Waits c stream k n ∧ At c j who .locking n) ∧
          (Past c stream k n ∨ Waits c stream k n ∧
            ∀ peer, (c.state n).peers[stream]? = some peer → peer.holder = none) :=
    .along hnext h.frees
  refine .ensures_strongly (h.readers j) ?_ (fun n hP _ => hnext n hP) ?_
  · rintro n ⟨hwaits, hat⟩
    obtain ⟨m, hm, hdone | ⟨⟨-, hat'⟩, hpast | ⟨⟨-, peer, hpeer, -⟩, hfree⟩⟩⟩ :=
      hfrees n ⟨⟨hwaits, hat⟩, hwaits⟩
    · exact ⟨m, hm, .inl hdone⟩
    · exact ⟨m, hm, .inl (.inl hpast)⟩
    · exact ⟨m, hm, .inr (able hat' (hstream ▸ hpeer) (hfree peer hpeer))⟩
  · rintro n ⟨hwaits, hat⟩ - hinput
    exact (h.waits_next hwaits).imp_right fun hwaits' => ⟨hwaits', hown n hat hinput⟩

/-- **A reader that has not returned reads on**, or its client was authenticated. -/
theorem attends (h : Attentive c stream) (hstream : who.stream.id = stream) :
    LeadsTo (fun n => Waits c stream k n ∧ ∃ phase, phase ≠ .returned ∧ At c j who phase n)
      fun n => Past c stream k n ∨
        Waits c stream k n ∧ who.isAuthenticated = false ∧ (c.state n).Moved who.target := by
  have hheld : LeadsTo (fun n => Waits c stream k n ∧ ∃ phase, phase ≠ .locking ∧
      phase ≠ .returned ∧ At c j who phase n) fun n => Past c stream k n ∨
        Waits c stream k n ∧ who.isAuthenticated = false ∧ (c.state n).Moved who.target := by
    rintro n ⟨hwaits, phase, hlocking, hreturned, hat⟩
    have hasks : At c j who .lockingChannel n ∨ At c j who .draining n →
        ∃ m, n ≤ m ∧ (Past c stream k m ∨
          Waits c stream k m ∧ who.isAuthenticated = false ∧ (c.state m).Moved who.target) := by
      intro hasks
      have hstatus : who.isAuthenticated = false := by
        have hregistered := (orderly c n).registered
        rcases hasks with hat' | hat'
        · exact hregistered.asks { who with phase := .lockingChannel }
            (List.mem_of_getElem? hat') (.inl rfl)
        · exact hregistered.asks { who with phase := .draining }
            (List.mem_of_getElem? hat') (.inr rfl)
      obtain ⟨m, hm, hend⟩ := h.asks hstream n ⟨hwaits, hasks⟩
      exact ⟨m, hm, hend.imp_right fun hmoved => ⟨hmoved.1, hstatus, hmoved.2.1⟩⟩
    cases phase with
    | locking => exact absurd rfl hlocking
    | returned => exact absurd rfl hreturned
    | lockingChannel => exact hasks (.inl hat)
    | draining => exact hasks (.inr hat)
    | reading state =>
      obtain ⟨m, hm, hpast⟩ := h.takes hstream n ⟨hwaits, state, hat⟩
      exact ⟨m, hm, .inl hpast⟩
  rintro n ⟨hwaits, phase, hreturned, hat⟩
  by_cases hlocking : phase = .locking
  · subst hlocking
    obtain ⟨m, hm, hpast | ⟨hwaits', hat'⟩⟩ := h.locks hstream n ⟨hwaits, hat⟩
    · exact ⟨m, hm, .inl hpast⟩
    · obtain ⟨l, hl, hend⟩ :=
        hheld m ⟨hwaits', _, who.loopStart_holds.1, who.loopStart_holds.2, hat'⟩
      exact ⟨l, hm.trans hl, hend⟩
  · exact hheld n ⟨hwaits, phase, hlocking, hreturned, hat⟩

/-! ### The clients that are heard -/

variable {uuid : Uuid} {kind : StreamKind}

/-- The client of a stream that is open is not reported. -/
theorem unreported (h : Attentive c stream) (hissued : (uuid, ⟨stream, kind⟩) ∈ (c.state n).issued)
    (isAuthenticated : Bool) :
    (uuid, isAuthenticated) ∉ (c.state n).port.clientDisconnected := by
  intro hmem
  have hknown := (orderly c n).registered.known _
    (List.mem_append_left _ (List.mem_map_of_mem hissued))
  have hpeer := List.getElem?_eq_getElem hknown
  have hclosed := (orderly c n).endsFirst _ hmem _ _ hissued hpeer
  cases (h.opened n _ hpeer).symm.trans hclosed

theorem has_next (h : Attentive c stream) {p : ListeningInfos → Prop}
    (hmark : ∀ infos, p infos → p { infos with listening := true })
    (hissued : (uuid, ⟨stream, kind⟩) ∈ (c.state n).issued) (hhas : (c.state n).Has p uuid) :
    (c.state (n + 1)).Has p uuid := by
  rcases c.step n with ⟨-, hsame⟩ | ⟨input, output, -, hstep⟩
  · rw [hsame]
    exact hhas
  · exact hhas.step hmark (orderly c n).registered (h.unreported hissued) (step_change hstep)

/-- A client that is heard has a reader that has not returned, with the status of the client. -/
theorem exists_reader (h : Attentive c stream)
    (hissued : (uuid, ⟨stream, kind⟩) ∈ (c.state n).issued) (hheard : (c.state n).Heard uuid) :
    ∃ j who phase, who.stream.id = stream ∧ phase ≠ .returned ∧ At c j who phase n ∧
      who.target = uuid ∧
        (uuid ∈ (c.state n).port.listeningClients → who.isAuthenticated = true) := by
  have horderly := orderly c n
  have hsizes : (c.state n).Sizes (frameHeader settings.bytes settings.order) ⟨stream, kind⟩ :=
    fun peer hpeer => Peer.whole_iff.mp (h.whole n peer hpeer)
  have hreader : ∀ {isAuthenticated}, (c.state n).Tends uuid isAuthenticated →
      ∃ j who phase, who.stream.id = stream ∧ phase ≠ .returned ∧ At c j who phase n ∧
        who.target = uuid ∧ who.isAuthenticated = isAuthenticated := by
    rintro isAuthenticated (⟨reader, hmem, htarget, hstatus, hphase⟩ | hqueued)
    · obtain ⟨j, hj⟩ := List.mem_iff_getElem?.mp hmem
      have hown := (horderly.registered.readers reader hmem).1
      obtain ⟨-, hstream⟩ := horderly.registered.unique hown hissued (.inl htarget)
      exact ⟨j, reader, reader.phase, by rw [hstream], hphase, hj, htarget, hstatus⟩
    · exact absurd hqueued (h.unreported hissued isAuthenticated)
  have hentry : ∀ {infos}, (c.state n).port.Entry uuid infos →
      infos.readWriteType = ⟨stream, kind⟩ := by
    intro infos hentry
    exact (horderly.registered.unique (horderly.registered.entries uuid infos hentry) hissued
      (.inl rfl)).2
  by_cases hlistening : uuid ∈ (c.state n).port.listeningClients
  · obtain ⟨infos, hinfos⟩ := AssocMap.lookup_of_mem hlistening
    obtain ⟨j, who, phase, hstream, hphase, hat, htarget, hstatus⟩ :=
      hreader (horderly.attended.listening uuid infos hinfos (hentry (.inr hinfos) ▸ hsizes))
    exact ⟨j, who, phase, hstream, hphase, hat, htarget, fun _ => hstatus⟩
  · obtain ⟨infos, hinfos, hmarked⟩ := hheard.resolve_left hlistening
    obtain ⟨j, who, phase, hstream, hphase, hat, htarget, -⟩ :=
      hreader (horderly.attended.waiting uuid infos hinfos hmarked (hentry (.inl hinfos) ▸ hsizes))
    exact ⟨j, who, phase, hstream, hphase, hat, htarget, fun hmem => absurd hmem hlistening⟩

/-- **The bytes of a client that is heard are taken.** -/
theorem reads (h : Attentive c stream) :
    LeadsTo (fun n => Waits c stream k n ∧ (uuid, ⟨stream, kind⟩) ∈ (c.state n).issued ∧
      (c.state n).Heard uuid) (Past c stream k) := by
  have hauthenticated : ∀ n, Waits c stream k n →
      (uuid, ⟨stream, kind⟩) ∈ (c.state n).issued → (c.state n).Heard uuid →
        uuid ∈ (c.state n).port.listeningClients → ∃ m, n ≤ m ∧ Past c stream k m := by
    intro n hwaits hissued hheard hlistening
    obtain ⟨j, who, phase, hstream, hphase, hat, -, hstatus⟩ := h.exists_reader hissued hheard
    obtain ⟨m, hm, hpast | ⟨-, hnot, -⟩⟩ := h.attends hstream n ⟨hwaits, phase, hphase, hat⟩
    · exact ⟨m, hm, hpast⟩
    · cases (hstatus hlistening).symm.trans hnot
  have hstays : ∀ n, (uuid, ⟨stream, kind⟩) ∈ (c.state n).issued ∧ (c.state n).Heard uuid →
      False ∨ (uuid, ⟨stream, kind⟩) ∈ (c.state (n + 1)).issued ∧ (c.state (n + 1)).Heard uuid :=
    fun n hn => .inr ⟨issued_next hn.1, h.has_next (fun _ _ => rfl) hn.1 hn.2⟩
  rintro n ⟨hwaits, hissued, hheard⟩
  obtain ⟨j, who, phase, hstream, hphase, hat, htarget, -⟩ := h.exists_reader hissued hheard
  have hattends : LeadsTo (fun n =>
      ((uuid, ⟨stream, kind⟩) ∈ (c.state n).issued ∧ (c.state n).Heard uuid) ∧
        Waits c stream k n ∧ ∃ phase, phase ≠ .returned ∧ At c j who phase n) fun n =>
      False ∨ ((uuid, ⟨stream, kind⟩) ∈ (c.state n).issued ∧ (c.state n).Heard uuid) ∧
        (Past c stream k n ∨ Waits c stream k n ∧ who.isAuthenticated = false ∧
          (c.state n).Moved who.target) :=
    .along hstays (h.attends hstream)
  obtain ⟨m, hm, hfalse | ⟨⟨hissued', hheard'⟩, hpast | ⟨hwaits', -, hmoved⟩⟩⟩ :=
    hattends n ⟨⟨hissued, hheard⟩, hwaits, phase, hphase, hat⟩
  · exact hfalse.elim
  · exact ⟨m, hm, hpast⟩
  · have hlistening : uuid ∈ (c.state m).port.listeningClients := by
      refine hheard'.resolve_right ?_
      rintro ⟨infos, hinfos, -⟩
      exact hmoved.2 (htarget ▸ AssocMap.mem_of_lookup hinfos)
    obtain ⟨l, hl, hpast⟩ := hauthenticated m hwaits' hissued' hheard' hlistening
    exact ⟨l, hm.trans hl, hpast⟩

/-! ### The clients that are admitted -/

theorem admitted_next (h : Attentive c stream) (hadmitted : (c.state n).Admitted ⟨stream, kind⟩) :
    (c.state (n + 1)).Admitted ⟨stream, kind⟩ := by
  obtain ⟨uuid, hissued, hhas⟩ := hadmitted
  exact ⟨uuid, issued_next hissued, h.has_next (fun _ _ => trivial) hissued hhas⟩

/-- A stream that was accepted waits to be given out, or was given out. -/
theorem accepted (h : Attentive c stream) (n : Nat) (hlength : stream < (c.state n).peers.length) :
    ∃ kind, ⟨stream, kind⟩ ∈ (c.state n).port.clientConnected ∨
      (c.state n).Admitted ⟨stream, kind⟩ := by
  induction n with
  | zero =>
    rw [c.start] at hlength
    cases hlength
  | succ n ih =>
    rcases c.step n with ⟨-, hsame⟩ | ⟨input, output, -, hstep⟩
    · rw [hsame] at hlength ⊢
      exact ih hlength
    · have hold : stream < (c.state n).peers.length → ∃ kind,
          ⟨stream, kind⟩ ∈ (c.state (n + 1)).port.clientConnected ∨
            (c.state (n + 1)).Admitted ⟨stream, kind⟩ := by
        intro hbefore
        obtain ⟨kind, hqueue | hadmitted⟩ := ih hbefore
        · exact ⟨kind, (queue_step hstep hqueue).symm.imp_left And.left⟩
        · exact ⟨kind, .inr (h.admitted_next hadmitted)⟩
      rcases (step_change hstep).peers with hsame | ⟨kind, hafter⟩
      · exact hold (hsame ▸ hlength)
      · rw [hafter, accept, List.length_append] at hlength
        rcases Nat.lt_succ_iff_lt_or_eq.mp hlength with hbefore | rfl
        · exact hold hbefore
        · refine ⟨kind, .inl ?_⟩
          rw [hafter]
          exact List.mem_append_right _ (List.mem_singleton_self _)

/-- **A stream that waits is given out.** -/
theorem admitted (h : Attentive c stream) :
    LeadsTo (fun n => ⟨stream, kind⟩ ∈ (c.state n).port.clientConnected)
      fun n => (c.state n).Admitted ⟨stream, kind⟩ := by
  have hfair : WeaklyFair (fun _ => True) fun n =>
      ∃ newUuid, c.input n = some (.portOp (.checkClientsConnected newUuid)) := fun _ => h.admits
  refine .descends (fun n => (c.state n).port.clientConnected.idxOf ⟨stream, kind⟩) hfair
    (fun _ _ _ => trivial) (fun n hqueue _ => ?_) fun n hqueue _ hinput => ?_
  · rcases c.step n with ⟨-, hsame⟩ | ⟨input, output, -, hstep⟩
    · rw [hsame]
      exact .inr ⟨hqueue, le_rfl⟩
    · exact (queue_step hstep hqueue).imp_right fun hnext => ⟨hnext.1, hnext.2.1⟩
  · obtain ⟨newUuid, hinput⟩ := hinput
    rcases c.step n with ⟨hidle, -⟩ | ⟨input, output, hinput', hstep⟩
    · cases hinput.symm.trans hidle
    · have hnext := queue_step hstep hqueue
      cases hinput.symm.trans hinput'
      exact hnext.imp_right fun hnext => ⟨hnext.1, hnext.2.2 ⟨newUuid, rfl⟩⟩

/-- **A client that was given out is heard.** -/
theorem hears (h : Attentive c stream) :
    LeadsTo (fun n => (c.state n).Admitted ⟨stream, kind⟩) fun n =>
      ∃ uuid, (uuid, ⟨stream, kind⟩) ∈ (c.state n).issued ∧ (c.state n).Heard uuid := by
  have hfair : WeaklyFair (fun _ => True) fun n =>
      c.input n = some (.portOp .checkNotAuthenticatedClients) := fun _ => h.listens
  refine .ensures hfair (fun _ _ _ => trivial)
    (fun n hadmitted _ => .inr (h.admitted_next hadmitted)) fun n hadmitted _ hinput => ?_
  obtain ⟨uuid, hissued, hhas⟩ := hadmitted
  rcases c.step n with ⟨hidle, -⟩ | ⟨input, output, hinput', hstep⟩
  · cases hinput.symm.trans hidle
  · cases hinput.symm.trans hinput'
    exact ⟨uuid, issued_next hissued, hhas.marked hstep⟩

/-- A client is heard as long as its stream is open. -/
theorem heard_stays (h : Attentive c stream) (hle : n ≤ m) {uuid : Uuid} {kind : StreamKind}
    (hheard : (uuid, ⟨stream, kind⟩) ∈ (c.state n).issued ∧ (c.state n).Heard uuid) :
    (uuid, ⟨stream, kind⟩) ∈ (c.state m).issued ∧ (c.state m).Heard uuid := by
  induction m, hle using Nat.le_induction with
  | base => exact hheard
  | succ m _ ih => exact ⟨issued_next ih.1, h.has_next (fun _ _ => rfl) ih.1 ih.2⟩

/-- **The bytes that come are taken.** -/
theorem taken (h : Attentive c stream) (k : Nat) :
    LeadsTo (Untaken c stream k) (Past c stream k) := by
  have hready : LeadsTo (Untaken c stream k) fun n => Calm c n ∧ ∃ uuid kind,
      (uuid, ⟨stream, kind⟩) ∈ (c.state n).issued ∧ (c.state n).Heard uuid := by
    rintro n ⟨peer, hpeer, -⟩
    obtain ⟨kind, hwaits⟩ := h.accepted n (List.getElem?_eq_some_iff.mp hpeer).1
    have hadmitted : ∃ m, n ≤ m ∧ (c.state m).Admitted ⟨stream, kind⟩ := by
      rcases hwaits with hqueue | hadmitted
      · exact h.admitted n hqueue
      · exact ⟨n, le_rfl, hadmitted⟩
    obtain ⟨m, hm, hadmitted⟩ := hadmitted
    obtain ⟨l, hl, uuid, hheard⟩ := h.hears m hadmitted
    obtain ⟨calm, hcalm⟩ := eventually_atTop.mp h.settles
    refine ⟨max l calm, (hm.trans hl).trans (le_max_left _ _), fun m hm => ?_, uuid, kind, ?_⟩
    · exact hcalm m ((le_max_right _ _).trans hm)
    · exact h.heard_stays (le_max_left _ _) hheard
  have hwaits : LeadsTo (fun n => Untaken c stream k n ∧ Untaken c stream k n) fun n =>
      Past c stream k n ∨ Untaken c stream k n ∧ Calm c n ∧ ∃ uuid kind,
        (uuid, ⟨stream, kind⟩) ∈ (c.state n).issued ∧ (c.state n).Heard uuid :=
    .along (fun n huntaken => h.untaken_next huntaken) hready
  intro n huntaken
  obtain ⟨m, hm, hpast | ⟨huntaken', hcalm, uuid, kind, hheard⟩⟩ := hwaits n ⟨huntaken, huntaken⟩
  · exact ⟨m, hm, hpast⟩
  · obtain ⟨l, hl, hpast⟩ := h.reads m ⟨⟨hcalm, huntaken'⟩, hheard⟩
    exact ⟨l, hm.trans hl, hpast⟩

end Attentive

end Course

end Inator
