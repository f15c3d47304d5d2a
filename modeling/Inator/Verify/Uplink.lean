import Inator.Verify.Arrival
import Inator.Verify.Attention

/-! # What is sent to a server comes to be pushed

A client that connects, and is neither cut off nor fails, is taken up and heard, and the messages
of all its calls come to be pushed to its UUID. Each of the parties has to get its turn: the tasks
that write, the network, the readers of the server, and the two operations that admit clients. -/

namespace Inator
open Machine Temporal Filter

namespace TcpNetwork

/-- Before any client has connected, with the runtime of the server's connection. -/
def started (settings : TcpSettingsServer) : TcpNetwork :=
  { new settings with server := TcpServer.started settings }

variable {τ : Type} [UserMessages τ] [Ciborium τ] {senders : Nat → Option TcpSender}
  {runtime : Option Runtime} {settings : TcpSettingsServer} {stream : Nat} {sender : TcpSender}

/-- The step that gives the server its runtime. -/
def starting (τ : Type) [UserMessages τ] (settings : TcpSettingsServer) : NetworkTransition τ :=
  ⟨new settings, .server .startRuntime, TcpServer.quiet, started settings⟩

theorem run_of_started {ts : List (NetworkTransition τ)} {network : TcpNetwork}
    (h : (networkMachine τ senders runtime).Run (started settings) ts network) :
    (networkMachine τ senders runtime).Run (.new settings) (starting τ settings :: ts) network := by
  have hstart : (networkMachine τ senders runtime).step (new settings) (.server .startRuntime) =
      some (started settings, TcpServer.quiet) := rfl
  exact (Run.single hstart).append h

omit [Ciborium τ] in
theorem sound_starting (H : Framing.Header UInt8) : Sound H stream (starting τ settings) where
  fails i hinput := by cases hinput
  legible writer hwriter := absurd hwriter List.not_mem_nil

/-- How many bytes of a stream have come after a step. -/
theorem step_arrived {network after : TcpNetwork} {input : NetworkInput τ} {output : TcpOutput}
    (h : step senders runtime network input = some (after, output)) (stream : Nat) :
    (∃ count, input = .arrive stream count ∧
        after.arrived stream = network.arrived stream + (network.next stream count).length) ∨
      (∀ count, input ≠ .arrive stream count) ∧
        after.arrived stream = network.arrived stream := by
  rcases step_spec h with ⟨_, rfl, -, -, -, harrived⟩ | ⟨_, _, _, _, rfl, -, -, rfl, -⟩ |
    ⟨stream', count, server, rfl, -, rfl⟩
  · exact .inr ⟨by rintro count ⟨⟩, congrFun harrived stream⟩
  · exact .inr ⟨by rintro count ⟨⟩, rfl⟩
  · by_cases hid : stream = stream'
    · subst hid
      exact .inl ⟨count, rfl, Function.update_self ..⟩
    · refine .inr ⟨fun count' heq => ?_, Function.update_of_ne hid _ _⟩
      cases heq
      exact hid rfl

omit [UserMessages τ] [Ciborium τ] in
theorem length_next (network : TcpNetwork) (stream count : Nat) :
    (network.next stream count).length =
      min count ((network.writers stream).wire.length - network.arrived stream) := by
  rw [next, wire, List.length_take, List.length_drop, List.length_map]

theorem started_writers (settings : TcpSettingsServer) (stream : Nat) :
    (started settings).writers stream = .new := rfl

/-- The server of a network. -/
def serverCourse (e : Execution (networkMachine τ senders runtime) (started settings)) :
    Course tcpMachine (TcpServer.started settings) :=
  e.part server serverLabel rfl (fun _ hof hlabel => server_idle hof hlabel)
    fun _ hof _ hlabel => server_moves hof hlabel

/-- The writers of a stream of a network. -/
def writersCourse (e : Execution (networkMachine τ senders runtime) (started settings))
    (hsender : senders stream = some sender) : Course (writerMachine τ sender runtime) .new :=
  e.part (fun network => network.writers stream) (writersLabel stream)
    (started_writers settings stream)
    (fun _ hof hlabel => writers_idle hof hlabel)
    fun _ hof _ hlabel => writers_moves hsender hof hlabel

theorem before_writersCourse
    (e : Execution (networkMachine τ senders runtime) (started settings))
    (hsender : senders stream = some sender) (n : Nat) :
    (writersCourse e hsender).before n = writersPart stream (e.before n) :=
  e.before_part ..

end TcpNetwork

section Uplink
variable {τ : Type} [UserMessages τ] [Ciborium τ] {senders : Nat → Option TcpSender}
  {runtime : Option Runtime} {settings : TcpSettingsServer} {stream : Nat} {sender : TcpSender}

/-- A client connects and its stream stays open, no write fails, each message is legible at the
server, and each of the parties gets its turn: the tasks that write, the network, the readers of
the server, and the operations that admit clients. From some time on nobody is authenticated. -/
structure UplinkServes
    (e : Execution (networkMachine τ senders runtime) (TcpNetwork.started settings))
    (stream : Nat) : Prop where
  sound : ∀ n,
    TcpNetwork.Sound (frameHeader settings.bytes settings.order) stream (e.transition n)
  connects : ∃ n, stream < (e.state n).server.peers.length
  opened : ∀ n peer, (e.state n).server.peers[stream]? = some peer → peer.closed = false
  writers : ∀ i, StronglyFair (fun n => (((e.state n).writers stream).writerStep i).isSome)
    fun n => e.input n = .writers stream (.writer i)
  arrives : WeaklyFair
    (fun n => stream < (e.state n).server.peers.length ∧ (e.state n).next stream 1 ≠ [])
    fun n => ∃ count, 0 < count ∧ e.input n = .arrive stream count
  readers : ∀ i, StronglyFair (fun n => ((e.state n).server.readerStep i).isSome)
    fun n => e.input n = .server (.reader i)
  admits : ∃ᶠ n in atTop, ∃ newUuid,
    e.input n = .server (.portOp (.checkClientsConnected newUuid))
  listens : ∃ᶠ n in atTop, e.input n = .server (.portOp .checkNotAuthenticatedClients)
  settles : ∀ᶠ n in atTop, ∀ uuid, e.input n ≠ .server (.authenticateClient uuid)

namespace UplinkServes
open TcpNetwork
variable {e : Execution (networkMachine τ senders runtime) (started settings)} {n m : Nat}

theorem serverCourse_input {input : TcpInput} (hinput : e.input n = .server input) :
    (serverCourse e).input n = some input := by
  change (serverLabel (e.transition n)).map Prod.fst = some input
  rw [serverLabel, show (e.transition n).input = _ from hinput]
  rfl

theorem sound_before (h : UplinkServes e stream) (n : Nat) :
    ∀ t ∈ starting τ settings :: e.before n,
      Sound (frameHeader settings.bytes settings.order) stream t := by
  refine List.forall_mem_cons.mpr ⟨sound_starting _, fun t ht => ?_⟩
  obtain ⟨m, -, rfl⟩ := Execution.mem_before ht
  exact h.sound m

theorem explained (h : UplinkServes e stream) (hsender : senders stream = some sender) (n : Nat) :
    ∃ queue, (e.state n).Explained (frameHeader settings.bytes settings.order) stream queue := by
  obtain ⟨-, queue, -, -, hexplained⟩ := (simulates (τ := τ) settings senders runtime hsender).run
    (explained_start _ _ _) (TcpNetwork.run_of_started (e.run n)) (h.sound_before n)
  exact ⟨queue, hexplained⟩

theorem legible (h : UplinkServes e stream) (n : Nat) :
    ((e.state n).writers stream).AllLegible (frameHeader settings.bytes settings.order) :=
  legible_run (TcpNetwork.run_of_started (e.run n)) (h.sound_before n)

theorem takeTurns (h : UplinkServes e stream) (hsender : senders stream = some sender) :
    TakeTurns (writersCourse e hsender) where
  fails n i hinput := by
    obtain ⟨l, hlabel, hl⟩ := Option.map_eq_some_iff.mp hinput
    change writersLabel stream (e.transition n) = some l at hlabel
    rw [writersLabel] at hlabel
    split at hlabel
    · rename_i stream' input hinput'
      split at hlabel
      · rename_i heq
        cases hlabel
        cases heq
        cases hl
        exact (h.sound n).fails i hinput'
      · cases hlabel
    all_goals cases hlabel
  fair i hcan := by
    refine (h.writers i hcan).mono fun n hinput => ?_
    change (writersLabel stream (e.transition n)).map Prod.fst = some (.writer i)
    rw [writersLabel, show (e.transition n).input = _ from hinput]
    simp only [if_true, Option.map_some]

/-- What the server has taken from the stream can be cut. -/
theorem whole (h : UplinkServes e stream) (hsender : senders stream = some sender) (n : Nat) :
    (Framing.parse (frameHeader settings.bytes settings.order)
      ((e.state n).server.consumedAt stream)).ending ≠ .refused := by
  obtain ⟨queue, hexplained⟩ := h.explained hsender n
  exact hexplained.onTheWay.whole (TakeTurns.guarded (writersCourse e hsender) n) (h.legible n)
    hexplained.carries.consumed_begins

theorem attentive (h : UplinkServes e stream) (hsender : senders stream = some sender) :
    Attentive (serverCourse e) stream where
  opened := h.opened
  whole n peer hpeer := by
    have hwhole := h.whole hsender n
    have hconsumed : (e.state n).server.consumedAt stream = peer.consumed :=
      TcpServer.consumedAt_eq hpeer
    rw [hconsumed] at hwhole
    exact Peer.whole_iff.mpr hwhole
  readers i hcan := (h.readers i hcan).mono fun _ hinput => serverCourse_input hinput
  admits := h.admits.mono fun _ ⟨newUuid, hinput⟩ => ⟨newUuid, serverCourse_input hinput⟩
  listens := h.listens.mono fun _ hinput => serverCourse_input hinput
  settles := by
    refine h.settles.mono fun n hnobody uuid hinput => ?_
    obtain ⟨l, hlabel, hl⟩ := Option.map_eq_some_iff.mp hinput
    change serverLabel (e.transition n) = some l at hlabel
    rw [serverLabel] at hlabel
    split at hlabel
    · rename_i input hinput'
      cases hlabel
      cases hl
      exact hnobody uuid hinput'
    · cases hlabel
    · cases hlabel
      cases hl

theorem connected_mono : Monotone fun n => stream < (e.state n).server.peers.length := by
  refine monotone_nat_of_le_succ fun n (hlength : stream < (e.state n).server.peers.length) => ?_
  change stream < ((serverCourse e).state (n + 1)).peers.length
  rcases (serverCourse e).step n with ⟨-, hsame⟩ | ⟨input, output, -, hstep⟩
  · rw [hsame]
    exact hlength
  · rcases (TcpServer.step_change hstep).peers with hsame | ⟨kind, hafter⟩
    · rw [hsame]
      exact hlength
    · rw [hafter, TcpServer.accept, List.length_append]
      exact Nat.lt_add_right _ hlength

theorem wire_mono (hsender : senders stream = some sender) (h : n ≤ m) :
    ((e.state n).writers stream).wire <+: ((e.state m).writers stream).wire :=
  TakeTurns.wire_mono (writersCourse e hsender) h

/-- **The network brings what was written**, once the client has connected. -/
theorem brings (h : UplinkServes e stream) (hsender : senders stream = some sender) (w : Nat) :
    LeadsTo (fun n => w ≤ ((e.state n).writers stream).wire.length)
      fun n => w ≤ (e.state n).arrived stream := by
  have hconnected : LeadsTo (fun n => w ≤ ((e.state n).writers stream).wire.length ∧
      stream < (e.state n).server.peers.length) fun n => w ≤ (e.state n).arrived stream := by
    have hkept : ∀ n, w ≤ ((e.state n).writers stream).wire.length ∧
        stream < (e.state n).server.peers.length →
          w ≤ ((e.state (n + 1)).writers stream).wire.length ∧
            stream < (e.state (n + 1)).server.peers.length :=
      fun n ⟨hw, hlength⟩ => ⟨hw.trans (wire_mono hsender (Nat.le_succ n)).length_le,
        connected_mono (Nat.le_succ n) hlength⟩
    refine .descends (fun n => w - (e.state n).arrived stream) h.arrives (fun n hw hgoal => ?_)
      (fun n hw hgoal => ?_) fun n hw hgoal hinput => ?_
    · refine ⟨hw.2, List.ne_nil_of_length_pos ?_⟩
      rw [length_next]
      omega
    · rcases step_arrived (e.step n) stream with ⟨count, -, harrived⟩ | ⟨-, harrived⟩
      · exact .inr ⟨hkept n hw, by omega⟩
      · exact .inr ⟨hkept n hw, by omega⟩
    · obtain ⟨count, hcount, hinput⟩ := hinput
      rcases step_arrived (e.step n) stream with ⟨count', hinput', harrived⟩ | ⟨hother, -⟩
      · cases hinput.symm.trans hinput'
        rw [length_next] at harrived
        exact .inr ⟨hkept n hw, by omega⟩
      · exact absurd hinput (hother count)
  intro n hw
  obtain ⟨k, hk⟩ := h.connects
  have hwritten := hw.trans (wire_mono hsender (le_max_left n k)).length_le
  obtain ⟨m, hm, harrived⟩ := hconnected (max n k)
    ⟨hwritten, connected_mono (le_max_right n k) hk⟩
  exact ⟨m, (le_max_left n k).trans hm, harrived⟩

theorem arrived_mono (h : n ≤ m) : (e.state n).arrived stream ≤ (e.state m).arrived stream := by
  induction m, h using Nat.le_induction with
  | base => exact le_rfl
  | succ m _ ih =>
    rcases step_arrived (e.step m) stream with ⟨count, -, harrived⟩ | ⟨-, harrived⟩ <;> omega

/-- **The server takes what has come.** -/
theorem takes (h : UplinkServes e stream) (hsender : senders stream = some sender) (w : Nat) :
    LeadsTo (fun n => w ≤ (e.state n).arrived stream)
      fun n => w ≤ ((e.state n).server.consumedAt stream).length := by
  refine .ranked (fun n => w - ((e.state n).server.consumedAt stream).length) ?_
  rintro r n ⟨hw, rfl⟩
  by_cases hgoal : w ≤ ((e.state n).server.consumedAt stream).length
  · exact ⟨n, le_rfl, .inl hgoal⟩
  obtain ⟨queue, hexplained⟩ := h.explained hsender n
  cases hpeer : (e.state n).server.peers[stream]? with
  | none =>
    have hnone := hexplained.carries.unconnected hpeer
    omega
  | some peer =>
    have hconsumed := TcpServer.consumedAt_eq hpeer
    rw [hconsumed] at hgoal ⊢
    have hcarried := hexplained.carries.carried peer hpeer
    have hcame := congrArg List.length (hcarried.whole (h.opened n peer hpeer))
    rw [List.length_append, List.length_take, Nat.min_eq_left hcarried.bounded] at hcame
    have huntaken : Attentive.Untaken (serverCourse e) stream peer.consumed.length n :=
      ⟨peer, hpeer, rfl, List.ne_nil_of_length_pos (by omega)⟩
    obtain ⟨m, hm, peer', hpeer', hmore⟩ := (h.attentive hsender).taken _ n huntaken
    refine ⟨m, hm, .inr ⟨hw.trans (arrived_mono hm), ?_⟩⟩
    have hconsumed' : (e.state m).server.consumedAt stream = peer'.consumed :=
      TcpServer.consumedAt_eq hpeer'
    rw [hconsumed']
    omega

end UplinkServes

/-- **A connection from a client to a server delivers.** As long as it stays open and each of the
parties gets its turn, the client is given a UUID, and the messages of all calls that were made by
now come to be pushed to it, each once, in the order in which the calls have taken the lock. -/
theorem uplink_delivers (hsender : senders stream = some sender)
    (e : Execution (networkMachine τ senders runtime) (TcpNetwork.started settings))
    (h : UplinkServes e stream) : ∃ uuid kind, ∀ n, ∃ m, n ≤ m ∧
      (uuid, ⟨stream, kind⟩) ∈ (e.state m).server.issued ∧ ∃ calls,
        calls <+: (e.before m).flatMap (TcpNetwork.locked stream) ∧ calls.Nodup ∧
        (∀ i < ((e.state n).writers stream).writers.length, i ∈ calls) ∧
          TcpServer.pushedTo uuid ((e.before m).flatMap fun t => t.output.pushed) =
            calls.map ((e.state m).writers stream).payloadOf := by
  have hattentive := h.attentive hsender
  have hturns := h.takeTurns hsender
  obtain ⟨k, hk⟩ := h.connects
  obtain ⟨kind, uuid, a, -, hissued⟩ : ∃ kind uuid a, k ≤ a ∧
      (uuid, ⟨stream, kind⟩) ∈ (e.state a).server.issued := by
    obtain ⟨kind, hqueue | ⟨uuid, hissued, -⟩⟩ := hattentive.accepted k hk
    · obtain ⟨a, ha, uuid, hissued, -⟩ := hattentive.admitted k hqueue
      exact ⟨kind, uuid, a, ha, hissued⟩
    · exact ⟨kind, uuid, k, le_rfl, hissued⟩
  have hstays : ∀ m, a ≤ m → (uuid, ⟨stream, kind⟩) ∈ (e.state m).server.issued := by
    intro m hm
    induction m, hm using Nat.le_induction with
    | base => exact hissued
    | succ m _ ih => exact Diligent.issued_next (c := TcpNetwork.serverCourse e) ih
  refine ⟨uuid, kind, fun n => ?_⟩
  have hbegins : ∀ n, (e.state n).server.consumedAt stream <+:
      ((e.state n).writers stream).wire.map Prod.snd := by
    intro n
    obtain ⟨queue, hexplained⟩ := h.explained hsender n
    exact hexplained.carries.consumed_begins
  obtain ⟨m, hm, calls, hcalls, hall, hframes⟩ := hturns.delivers h.legible hbegins
    (fun w => (h.brings hsender w).trans (h.takes hsender w)) (max n a)
  have hlocked : TakeTurns.locked (TcpNetwork.writersCourse e hsender) m =
      (e.before m).flatMap (TcpNetwork.locked stream) := by
    rw [TakeTurns.locked, TcpNetwork.before_writersCourse]
    exact TcpNetwork.flatMap_writersPart (e.run m).forall_of
      (fun writers after => writers.locks after) TcpWriters.locks_self
  have hnodup : (TakeTurns.locked (TcpNetwork.writersCourse e hsender) m).Nodup :=
    (locks_run ((TcpNetwork.writersCourse e hsender).run m) (hturns.fails_before m)).1
  have hm' := max_le_iff.mp hm
  refine ⟨m, hm'.1, hstays m hm'.2, calls, hlocked ▸ hcalls, hnodup.sublist hcalls.sublist,
    fun i hi => hall i ?_, ?_⟩
  · obtain ⟨phase, hwriter⟩ := hturns.lookup_mono (List.getElem?_eq_getElem hi) (le_max_left n a)
    exact (List.getElem?_eq_some_iff.mp hwriter).1
  · have hpushed := TcpNetwork.pushedTo_run (TcpNetwork.run_of_started (e.run m)) hsender
      (h.sound_before m) (hstays m hm'.2)
    exact hpushed.trans hframes

end Uplink

namespace Sample

/-- The server has its runtime from the beginning. -/
def servedInputs : List (NetworkInput Sample) := uplinkInputs.tail

def servedRun : List (NetworkTransition Sample) × TcpNetwork :=
  ((networkMachine Sample senders (some .new)).exec (.started .default) servedInputs).getD
    ([], .started .default)

/-- Nobody is there to be admitted. -/
def servedRest (k : Nat) : NetworkInput Sample :=
  if k % 2 = 0 then .server (.portOp (.checkClientsConnected 8))
  else .server (.portOp .checkNotAuthenticatedClients)

theorem exec_served : (networkMachine Sample senders (some .new)).exec (.started .default)
    servedInputs = some (servedRun.1, servedRun.2) := rfl

theorem rest_served (k : Nat) : ∃ o, (networkMachine Sample senders (some .new)).step servedRun.2
    (servedRest k) = some (servedRun.2, o) := by
  unfold servedRest
  split
  · exact ⟨TcpServer.quiet, rfl⟩
  · exact ⟨TcpServer.quiet, rfl⟩

def served : Execution (networkMachine Sample senders (some .new)) (.started .default) :=
  .resting exec_served rest_served

theorem served_serves : UplinkServes served 0 := by
  have hall : servedRun.1.all (fun t => (match t.input with
    | .writers _ (.fail _) => false
    | _ => true) && (t.post.writers 0).writers.all short &&
      t.pre.server.peers.all fun peer => !peer.closed) = true := rfl
  have hlast : ((servedRun.2.writers 0).writers.all short &&
    servedRun.2.server.peers.all fun peer => !peer.closed) = true := rfl
  have hend : ∀ᶠ n in atTop, served.state n = servedRun.2 :=
    eventually_atTop.mpr ⟨_, fun n hn => Execution.resting_state exec_served rest_served hn⟩
  have hinput : ∀ n, servedInputs.length ≤ n →
      served.input n = servedRest (n - servedInputs.length) :=
    fun n hn => Execution.resting_input exec_served rest_served hn
  have hcases : ∀ n, served.transition n ∈ servedRun.1 ∨ servedInputs.length ≤ n ∧
      (served.transition n).pre = servedRun.2 ∧ (served.transition n).post = servedRun.2 :=
    Execution.resting_transition exec_served rest_served
  have hoften : ∀ r < 2, ∃ᶠ n in atTop, served.input n = servedRest r := by
    intro r hr
    refine frequently_atTop.mpr fun n => ⟨servedInputs.length + (2 * n + r), by omega, ?_⟩
    rw [hinput _ (Nat.le_add_right _ _), Nat.add_sub_cancel_left, servedRest, servedRest,
      Nat.mul_add_mod, Nat.mod_eq_of_lt hr]
  rw [Bool.and_eq_true] at hlast
  refine ⟨fun n => ?_, ⟨servedInputs.length, ?_⟩, fun n peer hpeer => ?_, fun i => .of_never ?_,
    (StronglyFair.of_never ?_).weakly, fun i => .of_never ?_, ?_, ?_, ?_⟩
  · rcases hcases n with ht | ⟨hn, -, hpost⟩
    · have ht := List.all_eq_true.mp hall _ ht
      simp only [Bool.and_eq_true] at ht
      refine ⟨fun i hfails => ?_, fun writer hwriter => ?_⟩
      · have hother := ht.1.1
        rw [hfails] at hother
        cases hother
      · exact legible_of_short (List.all_eq_true.mp ht.1.2 writer hwriter)
    · refine ⟨fun i hfails => ?_, fun writer hwriter => ?_⟩
      · have hrest := (hinput n hn).symm.trans hfails
        unfold servedRest at hrest
        split at hrest <;> cases hrest
      · rw [hpost] at hwriter
        exact legible_of_short (List.all_eq_true.mp hlast.1 writer hwriter)
  · have hstate : served.state servedInputs.length = servedRun.2 :=
      Execution.resting_state exec_served rest_served le_rfl
    rw [hstate]
    exact Nat.one_pos
  · have hmem := List.mem_of_getElem? hpeer
    have hclosed : (!peer.closed) = true := by
      change peer ∈ (served.transition n).pre.server.peers at hmem
      rcases hcases n with ht | ⟨-, hpre, -⟩
      · have ht := List.all_eq_true.mp hall _ ht
        rw [Bool.and_eq_true] at ht
        exact List.all_eq_true.mp ht.2 peer hmem
      · rw [hpre] at hmem
        exact List.all_eq_true.mp hlast.2 peer hmem
    rwa [Bool.not_eq_true'] at hclosed
  · refine hend.mono fun n hn => ?_
    rw [hn]
    rcases i with _ | _ | i <;> exact Bool.false_ne_true
  · refine hend.mono fun n hn => ?_
    rw [hn]
    exact fun hnext => hnext.2 rfl
  · refine hend.mono fun n hn => ?_
    rw [hn]
    rcases i with _ | _ | i <;> exact Bool.false_ne_true
  · exact (hoften 0 Nat.two_pos).mono fun n hn => ⟨8, hn⟩
  · exact (hoften 1 Nat.one_lt_two).mono fun n hn => hn
  · refine eventually_atTop.mpr ⟨servedInputs.length, fun n hn uuid hauthenticates => ?_⟩
    have hrest := (hinput n hn).symm.trans hauthenticates
    unfold servedRest at hrest
    split at hrest <;> cases hrest

end Sample

theorem uplink_delivers_served : ∃ uuid kind, ∀ n, ∃ m, n ≤ m ∧
    (uuid, ⟨0, kind⟩) ∈ (Sample.served.state m).server.issued ∧ ∃ calls,
      calls <+: (Sample.served.before m).flatMap (TcpNetwork.locked 0) ∧ calls.Nodup ∧
      (∀ i < ((Sample.served.state n).writers 0).writers.length, i ∈ calls) ∧
        TcpServer.pushedTo uuid ((Sample.served.before m).flatMap fun t => t.output.pushed) =
          calls.map ((Sample.served.state m).writers 0).payloadOf := by
  have hsender : Sample.senders 0 = some (.client connectedClient) := rfl
  exact uplink_delivers hsender Sample.served Sample.served_serves

end Inator
