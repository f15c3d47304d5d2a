import Inator.Verify.Readers

/-! # The hand-over of a stream between its readers

The reader that is started before authentication gives up its lock between two frames, or when
no byte will come any more. So whoever reads a stream cuts the same frames, and `handOver` says
that what is pushed for a client is what was cut of its stream. -/

namespace Inator
open TcpServer

/-- The reader has the lock of its read half. -/
def Reader.Holds (reader : Reader) : Prop :=
  reader.phase ≠ .locking ∧ reader.phase ≠ .returned

/-- How far a reader is in a frame. -/
def ReaderPhase.state : ReaderPhase → Framing.State UInt8
  | .reading state => state
  | _ => .start

/-- No byte of the stream is left, and none will come. -/
def Peer.Dead (peer : Peer) : Prop := peer.closed = true ∧ peer.arrived = []

/-- No reader of the stream has met a size it refuses. -/
def Peer.Whole (H : Framing.Header UInt8) (peer : Peer) : Prop :=
  (Framing.feedAll H .start peer.consumed).1 ≠ .refused

@[simp] theorem Reader.loopStart_state (reader : Reader) : reader.loopStart.state = .start := by
  unfold loopStart
  split <;> rfl

/-! ## One step of a reader -/

namespace Reader.Moves
variable {H : Framing.Header UInt8} {i : Nat} {reader : Reader} {peer : Peer} {port : ServerPort}
  {channelHolder : Option Nat} {moved : ReaderStep}

/-- A step is taken with the lock of the read half, or takes it. -/
theorem holds (h : reader.Moves i peer port channelHolder moved) :
    reader.Holds ∨ reader.phase = .locking ∧ peer.holder = none := by
  cases h with
  | locked phase free => exact .inr ⟨phase, free⟩
  | lockedChannel phase | drained phase | popped phase | handedOver phase | took phase
  | panicked phase | finished phase | disconnected phase =>
    left
    rw [Holds, phase]
    exact ⟨nofun, nofun⟩

/-- The lock is kept until the reader returns. -/
theorem holder (h : reader.Moves i peer port channelHolder moved)
    (hheld : reader.Holds → peer.holder = some i) :
    moved.peer.holder = some i ∧ Holds { reader with phase := moved.phase } ∨
      moved.peer.holder = none ∧ moved.phase = .returned := by
  have hkept : ∀ {phase}, reader.phase = phase → phase ≠ .locking → phase ≠ .returned →
      peer.holder = some i := by
    rintro phase rfl hlocking hreturned
    exact hheld ⟨hlocking, hreturned⟩
  have hstart : Holds { reader with phase := reader.loopStart } := by
    unfold Holds loopStart
    cases reader.isAuthenticated <;> exact ⟨nofun, nofun⟩
  cases h with
  | locked => exact .inl ⟨rfl, hstart⟩
  | finished phase => exact .inl ⟨hkept phase nofun nofun, hstart⟩
  | lockedChannel phase | drained phase | popped phase | took phase =>
    exact .inl ⟨hkept phase nofun nofun, nofun, nofun⟩
  | handedOver | panicked | disconnected => exact .inr ⟨rfl, rfl⟩

theorem pushed_target (h : reader.Moves i peer port channelHolder moved) :
    ∀ message ∈ moved.pushed, message.2 = reader.target := by
  cases h with
  | finished =>
    intro message hmessage
    rw [List.mem_singleton.mp hmessage]
  | _ => exact nofun

/-- A reader that is in state `state` of a stream reads its next byte there. -/
theorem feedAll_byte {state : Framing.State UInt8} {b : UInt8} {rest : List UInt8}
    (harrived : peer.arrived = b :: rest)
    (hcut : peer.Whole H →
      peer.Dead ∨ (Framing.feedAll H .start peer.consumed).1 = state)
    (hwhole : (Framing.feedAll H .start (peer.consumed ++ [b])).1 ≠ .refused) :
    peer.Whole H ∧ Framing.feedAll H .start (peer.consumed ++ [b]) =
      ((Framing.feed H state b).1,
        (Framing.feedAll H .start peer.consumed).2 ++ (Framing.feed H state b).2.toList) := by
  rw [Framing.feedAll_snoc] at hwhole ⊢
  have hbefore : peer.Whole H := by
    intro hold
    rw [hold] at hwhole
    exact hwhole rfl
  refine ⟨hbefore, ?_⟩
  rcases hcut hbefore with ⟨-, hempty⟩ | hstate
  · rw [harrived] at hempty
    cases hempty
  · rw [hstate]

/-- **A step reads on where the stream was cut**: at the same place of the same frame, so it
pushes the frames that the bytes it takes complete, and no others. -/
theorem reads (h : reader.Moves i peer port channelHolder moved)
    (hframing : frameHeader reader.bytes reader.order = H)
    (hcut : peer.Whole H →
      peer.Dead ∨ (Framing.feedAll H .start peer.consumed).1 = reader.phase.state)
    (hwhole : moved.peer.Whole H) :
    peer.Whole H ∧
      (moved.peer.Dead ∨ (Framing.feedAll H .start moved.peer.consumed).1 = moved.phase.state) ∧
      (Framing.feedAll H .start moved.peer.consumed).2 =
        (Framing.feedAll H .start peer.consumed).2 ++ moved.pushed.map Prod.fst := by
  have hbyte : ∀ {state b rest}, reader.phase = .reading state → peer.arrived = b :: rest →
      (Framing.feedAll H .start (peer.consumed ++ [b])).1 ≠ .refused → peer.Whole H ∧
        Framing.feedAll H .start (peer.consumed ++ [b]) =
          ((Framing.feed H state b).1,
            (Framing.feedAll H .start peer.consumed).2 ++ (Framing.feed H state b).2.toList) := by
    intro state b rest hphase harrived hrefused
    rw [hphase] at hcut
    exact feedAll_byte harrived hcut hrefused
  -- a step that takes none
  have hquiet : ∀ {phase : ReaderPhase}, reader.phase.state = phase.state → peer.Whole H →
      peer.Dead ∨ (Framing.feedAll H .start peer.consumed).1 = phase.state := by
    intro phase hphase hwhole'
    rw [← hphase]
    exact hcut hwhole'
  cases h with
  | locked phase =>
    have hstart : reader.phase.state = reader.loopStart.state := by
      rw [phase, loopStart_state]
      rfl
    exact ⟨hwhole, hquiet hstart hwhole, by simp⟩
  | lockedChannel phase | drained phase | popped phase | handedOver phase =>
    have hstart : reader.phase.state = .start := by rw [phase]; rfl
    exact ⟨hwhole, hquiet (by rw [hstart]; rfl) hwhole, by simp⟩
  | took phase arrived fed =>
    obtain ⟨hwhole', heq⟩ := hbyte phase arrived hwhole
    rw [← hframing] at heq ⊢
    rw [fed] at heq
    refine ⟨hframing ▸ hwhole', .inr ?_, ?_⟩
    · rw [heq]
      rfl
    · rw [heq]
      rfl
  | panicked phase arrived fed =>
    obtain ⟨hwhole', heq⟩ := hbyte phase arrived hwhole
    rw [← hframing, fed] at heq
    refine absurd ?_ hwhole
    rw [← hframing, heq]
  | finished phase arrived fed =>
    obtain ⟨hwhole', heq⟩ := hbyte phase arrived hwhole
    have hstart := Framing.feed_some fed
    rw [← hframing, fed, hstart] at heq
    rw [← hframing]
    refine ⟨hframing ▸ hwhole', .inr ?_, ?_⟩
    · rw [heq, loopStart_state]
    · rw [heq]
      rfl
  | disconnected phase arrived closed => exact ⟨hwhole, .inl ⟨closed, arrived⟩, by simp⟩

end Reader.Moves

/-! ## The locks -/

/-- An item of a list after one was replaced is that one, or an old one. -/
theorem of_getElem?_set {α : Type*} {l : List α} {i j : Nat} {a b : α}
    (h : (l.set i a)[j]? = some b) : (j = i ∧ b = a) ∨ j ≠ i ∧ l[j]? = some b := by
  rw [List.getElem?_set] at h
  split at h
  · rename_i hj
    split at h
    · cases h
      exact .inl ⟨hj.symm, rfl⟩
    · cases h
  · rename_i hj
    exact .inr ⟨Ne.symm hj, h⟩

namespace TcpServer
variable {settings : TcpSettingsServer} {server after : TcpServer} {input : TcpInput}
  {output : TcpOutput}

/-- A reader on its way has the lock of its own stream, and nobody else has a lock. -/
structure Locks (server : TcpServer) : Prop where
  active : ∀ (i : Nat) (reader : Reader) (peer : Peer), server.readers[i]? = some reader →
    reader.Holds → server.peers[reader.stream.id]? = some peer → peer.holder = some i
  holder : ∀ (id : Nat) (peer : Peer) (i : Nat), server.peers[id]? = some peer →
    peer.holder = some i → ∃ reader, server.readers[i]? = some reader ∧ reader.stream.id = id

/-- A reader that was just spawned waits for its lock. -/
theorem operated_reader {result : ServerPort × List Task} {i : Nat} {reader : Reader}
    (h : (server.operated result).readers[i]? = some reader) :
    server.readers[i]? = some reader ∨ ¬reader.Holds := by
  rw [operated, List.getElem?_append] at h
  split at h
  · exact .inl h
  · obtain ⟨task, -, hspawn⟩ := List.mem_filterMap.mp (List.mem_of_getElem? h)
    obtain ⟨hphase, -⟩ := Reader.spawn_eq_some.mp hspawn
    exact .inr fun hholds => hholds.1 hphase

theorem operated_reader_of {result : ServerPort × List Task} {i : Nat} {reader : Reader}
    (h : server.readers[i]? = some reader) :
    (server.operated result).readers[i]? = some reader := by
  rw [operated, List.getElem?_append_left (List.getElem?_eq_some_iff.mp h).1]
  exact h

theorem stepped_reader_self {i : Nat} {reader : Reader} {moved : ReaderStep}
    (h : server.readers[i]? = some reader) :
    (server.stepped i reader moved).readers[i]? = some { reader with phase := moved.phase } := by
  rw [stepped, List.getElem?_set_self (List.getElem?_eq_some_iff.mp h).1]

theorem stepped_reader_of {i j : Nat} {reader reader' : Reader} {moved : ReaderStep} (hj : j ≠ i)
    (h : server.readers[j]? = some reader') :
    (server.stepped i reader moved).readers[j]? = some reader' := by
  rw [stepped, List.getElem?_set_ne (Ne.symm hj)]
  exact h

theorem accept_peer {kind : StreamKind} {id : Nat} {peer : Peer}
    (h : (server.accept kind).peers[id]? = some peer) :
    server.peers[id]? = some peer ∨ id = server.peers.length ∧ peer = ⟨[], [], false, none⟩ := by
  rw [accept, List.getElem?_append] at h
  split at h
  · exact .inl h
  · rename_i hlength
    rw [List.getElem?_singleton] at h
    split at h
    · rename_i hid
      cases h
      exact .inr ⟨Nat.le_antisymm (Nat.sub_eq_zero_iff_le.mp hid) (Nat.le_of_not_lt hlength), rfl⟩
    · cases h

/-- The stream of a reader is known. -/
theorem Registered.stream_lt (h : server.Registered settings) {i : Nat} {reader : Reader}
    (hreader : server.readers[i]? = some reader) : reader.stream.id < server.peers.length := by
  obtain ⟨hissued, -⟩ := h.readers reader (List.mem_of_getElem? hreader)
  exact h.known _ (List.mem_append_left _ (List.mem_map_of_mem hissued))

/-- A UUID stands for one stream, and a stream for one UUID. -/
theorem Registered.unique (h : server.Registered settings) {uuid uuid' : Uuid}
    {stream stream' : Stream} (hissued : (uuid, stream) ∈ server.issued)
    (hissued' : (uuid', stream') ∈ server.issued) (heq : uuid = uuid' ∨ stream.id = stream'.id) :
    uuid = uuid' ∧ stream = stream' := by
  have hstreams := (List.nodup_append.mp h.streams).1
  rcases heq with heq | heq
  · exact Prod.mk.inj (List.inj_on_of_nodup_map h.uuids hissued hissued' heq)
  · exact Prod.mk.inj (List.inj_on_of_nodup_map hstreams hissued hissued' heq)

namespace Locks

theorem start : (new settings).Locks where
  active i reader peer h := by cases h
  holder id peer i h := by cases h

theorem operated (h : server.Locks) (result : ServerPort × List Task) :
    (server.operated result).Locks where
  active i reader peer hreader hholds hpeer := by
    rcases operated_reader hreader with hold | hnew
    · exact h.active i reader peer hold hholds hpeer
    · exact absurd hholds hnew
  holder id peer i hpeer hholder := by
    obtain ⟨reader, hreader, hid⟩ := h.holder id peer i hpeer hholder
    exact ⟨reader, operated_reader_of hreader, hid⟩

theorem stepped (h : server.Locks) {i : Nat} {reader : Reader} {peer : Peer} {moved : ReaderStep}
    (hreader : server.readers[i]? = some reader)
    (hpeer : server.peers[reader.stream.id]? = some peer)
    (hmoves : reader.Moves i peer server.port server.channelHolder moved) :
    (server.stepped i reader moved).Locks := by
  have hholder := hmoves.holder fun hholds => h.active i reader peer hreader hholds hpeer
  have hself : (server.stepped i reader moved).readers[i]? =
      some { reader with phase := moved.phase } := stepped_reader_self hreader
  constructor
  · intro j reader' peer' hreader' hholds' hpeer'
    rcases of_getElem?_set hreader' with ⟨rfl, rfl⟩ | ⟨hj, hold⟩
    · rcases of_getElem?_set hpeer' with ⟨-, rfl⟩ | ⟨hid, -⟩
      · rcases hholder with ⟨hheld, -⟩ | ⟨-, hreturned⟩
        · exact hheld
        · exact absurd hreturned hholds'.2
      · exact absurd rfl hid
    · rcases of_getElem?_set hpeer' with ⟨hid, rfl⟩ | ⟨-, hold'⟩
      · -- another reader of this stream cannot have the lock
        have hheld := h.active j reader' peer hold hholds' (hid ▸ hpeer)
        rcases hmoves.holds with hholds | ⟨-, hfree⟩
        · have hheld' := h.active i reader peer hreader hholds hpeer
          exact absurd (Option.some.inj (hheld.symm.trans hheld')) hj
        · cases hheld.symm.trans hfree
      · exact h.active j reader' peer' hold hholds' hold'
  · intro id peer' j hpeer' hholder'
    rcases of_getElem?_set hpeer' with ⟨rfl, rfl⟩ | ⟨hid, hold⟩
    · rcases hholder with ⟨hheld, -⟩ | ⟨hfree, -⟩
      · cases hheld.symm.trans hholder'
        exact ⟨_, hself, rfl⟩
      · cases hfree.symm.trans hholder'
    · obtain ⟨reader', hreader', hid'⟩ := h.holder id peer' j hold hholder'
      by_cases hj : j = i
      · subst hj
        cases hreader.symm.trans hreader'
        exact ⟨_, hself, hid'⟩
      · exact ⟨reader', stepped_reader_of hj hreader', hid'⟩

theorem step (h : server.Locks) (hregistered : server.Registered settings)
    (hchange : server.Change input after output) : after.Locks := by
  cases hchange with
  | startRuntime => exact ⟨h.active, h.holder⟩
  | ran | authenticated => exact h.operated _
  | admitted => exact ⟨h.active, h.holder⟩
  | connected =>
    constructor
    · intro i reader peer hreader hholds hpeer
      rcases accept_peer hpeer with hold | ⟨hnew, -⟩
      · exact h.active i reader peer hreader hholds hold
      · have hknown := hregistered.stream_lt hreader
        exact absurd hnew hknown.ne
    · intro id peer i hpeer hholder
      rcases accept_peer hpeer with hold | ⟨-, rfl⟩
      · exact h.holder id peer i hold hholder
      · cases hholder
  | @peer stream before peer lookup opened consumed holder =>
    constructor
    · intro i reader peer' hreader hholds hpeer'
      rcases of_getElem?_set hpeer' with ⟨hid, rfl⟩ | ⟨-, hold⟩
      · rw [holder]
        exact h.active i reader before hreader hholds (hid ▸ lookup)
      · exact h.active i reader peer' hreader hholds hold
    · intro id peer' i hpeer' hholder
      rcases of_getElem?_set hpeer' with ⟨rfl, rfl⟩ | ⟨-, hold⟩
      · rw [holder] at hholder
        exact h.holder id before i lookup hholder
      · exact h.holder id peer' i hold hholder
  | reader lookup stream moves => exact h.stepped lookup stream moves

end Locks

/-! ## The frames of the clients -/

/-- The messages that were pushed for a client. -/
def pushedTo (uuid : Uuid) (pushed : List (List UInt8 × Uuid)) : List (List UInt8) :=
  pushed.filterMap fun message => if message.2 = uuid then some message.1 else none

theorem pushedTo_append (uuid : Uuid) (pushed pushed' : List (List UInt8 × Uuid)) :
    pushedTo uuid (pushed ++ pushed') = pushedTo uuid pushed ++ pushedTo uuid pushed' :=
  List.filterMap_append

theorem pushedTo_self {uuid : Uuid} {pushed : List (List UInt8 × Uuid)}
    (h : ∀ message ∈ pushed, message.2 = uuid) : pushedTo uuid pushed = pushed.map Prod.fst := by
  induction pushed with
  | nil => rfl
  | cons message pushed ih =>
    obtain ⟨hhead, htail⟩ := List.forall_mem_cons.mp h
    rw [pushedTo, List.filterMap_cons, if_pos hhead]
    exact congrArg (message.1 :: ·) (ih htail)

theorem pushedTo_eq_nil {uuid : Uuid} {pushed : List (List UInt8 × Uuid)}
    (h : ∀ message ∈ pushed, message.2 ≠ uuid) : pushedTo uuid pushed = [] := by
  refine List.filterMap_eq_nil_iff.mpr fun message hmessage => ?_
  rw [if_neg (h message hmessage)]

/-- Where the reader that has the lock of a stream is in a frame. Nobody is in one else. -/
def cut (server : TcpServer) (peer : Peer) : Framing.State UInt8 :=
  match peer.holder with
  | none => .start
  | some i => ((server.readers[i]?).map (·.phase.state)).getD .start

theorem cut_of_holder {peer : Peer} {i : Nat} {reader : Reader} (hholder : peer.holder = some i)
    (hreader : server.readers[i]? = some reader) : server.cut peer = reader.phase.state := by
  simp only [cut, hholder, hreader, Option.map_some, Option.getD_some]

theorem cut_of_free {peer : Peer} (hfree : peer.holder = none) : server.cut peer = .start := by
  simp only [cut, hfree]

/-- What was pushed are the frames of the streams, and the lock of a stream is free between two
of them only. -/
structure HandsOver (H : Framing.Header UInt8) (pushed : List (List UInt8 × Uuid))
    (server : TcpServer) : Prop where
  cut : ∀ (id : Nat) (peer : Peer), server.peers[id]? = some peer → peer.Whole H →
    peer.Dead ∨ (Framing.feedAll H .start peer.consumed).1 = server.cut peer
  frames : ∀ (uuid : Uuid) (stream : Stream) (peer : Peer), (uuid, stream) ∈ server.issued →
    server.peers[stream.id]? = some peer → peer.Whole H →
      pushedTo uuid pushed = (Framing.feedAll H .start peer.consumed).2
  unread : ∀ (id : Nat) (peer : Peer), server.peers[id]? = some peer →
    id ∉ server.issued.map (·.2.id) → peer.consumed = []
  pushed : ∀ message ∈ pushed, message.2 ∈ server.issued.map Prod.fst

/-- A reader takes its step from where its stream is cut. -/
theorem Locks.cut_eq (h : server.Locks) {i : Nat} {reader : Reader} {peer : Peer}
    {moved : ReaderStep} (hreader : server.readers[i]? = some reader)
    (hpeer : server.peers[reader.stream.id]? = some peer)
    (hmoves : reader.Moves i peer server.port server.channelHolder moved) :
    server.cut peer = reader.phase.state := by
  rcases hmoves.holds with hholds | ⟨hphase, hfree⟩
  · exact cut_of_holder (h.active i reader peer hreader hholds hpeer) hreader
  · rw [cut_of_free hfree, hphase]
    rfl

namespace HandsOver
variable {H : Framing.Header UInt8} {pushed : List (List UInt8 × Uuid)}

theorem start (H : Framing.Header UInt8) : (new settings).HandsOver H [] where
  cut id peer h := by cases h
  frames uuid stream peer h := by cases h
  unread id peer h := by cases h
  pushed message h := by cases h

theorem operated (h : server.HandsOver H pushed) (hlocks : server.Locks)
    (result : ServerPort × List Task) : (server.operated result).HandsOver H pushed where
  cut id peer hpeer hwhole := by
    have hcut : (server.operated result).cut peer = server.cut peer := by
      cases hholder : peer.holder with
      | none => rw [cut_of_free hholder, cut_of_free hholder]
      | some i =>
        obtain ⟨reader, hreader, -⟩ := hlocks.holder id peer i hpeer hholder
        rw [cut_of_holder hholder (operated_reader_of hreader), cut_of_holder hholder hreader]
    rw [hcut]
    exact h.cut id peer hpeer hwhole
  frames := h.frames
  unread := h.unread
  pushed := h.pushed

theorem giveOut (h : server.HandsOver H pushed) (hregistered : server.Registered settings)
    {newUuid : Uuid} {stream : Stream} {rest : List Stream}
    (hfresh : newUuid ∉ server.issued.map Prod.fst)
    (hqueue : server.port.clientConnected = stream :: rest) :
    (server.giveOut newUuid stream rest).HandsOver H pushed where
  cut := h.cut
  frames uuid stream' peer hissued hpeer hwhole := by
    rcases List.mem_cons.mp hissued with hnew | hold
    · cases hnew
      -- nobody has read the stream yet, and nothing was pushed for a UUID that is new
      have hnodup := hregistered.streams
      rw [TcpServer.streams, hqueue] at hnodup
      have hnot : stream.id ∉ server.issued.map (·.2.id) := fun hmem =>
        (List.nodup_append.mp hnodup).2.2 _ hmem _ List.mem_cons_self rfl
      rw [h.unread stream.id peer hpeer hnot]
      refine pushedTo_eq_nil fun message hmessage heq => hfresh ?_
      rw [← heq]
      exact h.pushed message hmessage
    · exact h.frames uuid stream' peer hold hpeer hwhole
  unread id peer hpeer hnot := h.unread id peer hpeer fun hmem => hnot (List.mem_cons_of_mem _ hmem)
  pushed message hmessage := List.mem_cons_of_mem _ (h.pushed message hmessage)

theorem accept (h : server.HandsOver H pushed) (hregistered : server.Registered settings)
    (kind : StreamKind) : (server.accept kind).HandsOver H pushed where
  cut id peer hpeer hwhole := by
    rcases accept_peer hpeer with hold | ⟨-, rfl⟩
    · exact h.cut id peer hold hwhole
    · exact .inr rfl
  frames uuid stream peer hissued hpeer hwhole := by
    rcases accept_peer hpeer with hold | ⟨hid, -⟩
    · exact h.frames uuid stream peer hissued hold hwhole
    · have hknown := hregistered.known _ (List.mem_append_left _ (List.mem_map_of_mem hissued))
      exact absurd hid hknown.ne
  unread id peer hpeer hnot := by
    rcases accept_peer hpeer with hold | ⟨-, rfl⟩
    · exact h.unread id peer hold hnot
    · rfl
  pushed := h.pushed

/-- Bytes arrive at a stream, or it ends. -/
theorem modified (h : server.HandsOver H pushed) {id : Nat} {before peer : Peer}
    (hlookup : server.peers[id]? = some before) (hopened : before.closed = false)
    (hconsumed : peer.consumed = before.consumed) (hholder : peer.holder = before.holder) :
    { server with peers := server.peers.set id peer }.HandsOver H pushed where
  cut id' peer' hpeer' hwhole := by
    rcases of_getElem?_set hpeer' with ⟨-, rfl⟩ | ⟨-, hold⟩
    · rw [Peer.Whole, hconsumed] at hwhole
      rcases h.cut id before hlookup hwhole with ⟨hclosed, -⟩ | hcut
      · rw [hopened] at hclosed
        cases hclosed
      · right
        rw [hconsumed, hcut, TcpServer.cut, TcpServer.cut, hholder]
    · exact h.cut id' peer' hold hwhole
  frames uuid stream peer' hissued hpeer' hwhole := by
    rcases of_getElem?_set hpeer' with ⟨hid, rfl⟩ | ⟨-, hold⟩
    · rw [Peer.Whole, hconsumed] at hwhole
      rw [hconsumed]
      exact h.frames uuid stream before hissued (hid ▸ hlookup) hwhole
    · exact h.frames uuid stream peer' hissued hold hwhole
  unread id' peer' hpeer' hnot := by
    rcases of_getElem?_set hpeer' with ⟨rfl, rfl⟩ | ⟨-, hold⟩
    · rw [hconsumed]
      exact h.unread id' before hlookup hnot
    · exact h.unread id' peer' hold hnot
  pushed := h.pushed

/-- **A step of a reader** pushes the next frame of its stream to its client, if it pushes one,
and changes no other stream. -/
theorem stepped (h : server.HandsOver H pushed) (hregistered : server.Registered settings)
    (hlocks : server.Locks) (hframing : frameHeader settings.bytes settings.order = H) {i : Nat}
    {reader : Reader} {peer : Peer} {moved : ReaderStep}
    (hreader : server.readers[i]? = some reader)
    (hpeer : server.peers[reader.stream.id]? = some peer)
    (hmoves : reader.Moves i peer server.port server.channelHolder moved) :
    (server.stepped i reader moved).HandsOver H (pushed ++ moved.pushed) := by
  obtain ⟨hissued, hbytes, horder⟩ := hregistered.readers reader (List.mem_of_getElem? hreader)
  rw [← hbytes, ← horder] at hframing
  have hcut := hlocks.cut_eq hreader hpeer hmoves
  have hreads := hmoves.reads hframing fun hwhole => hcut ▸ h.cut _ peer hpeer hwhole
  have hholder := hmoves.holder fun hholds => hlocks.active i reader peer hreader hholds hpeer
  have htarget := hmoves.pushed_target
  constructor
  · intro id peer' hpeer' hwhole
    rcases of_getElem?_set hpeer' with ⟨-, rfl⟩ | ⟨hid, hold⟩
    · refine (hreads hwhole).2.1.imp_right fun hstate => hstate.trans ?_
      rcases hholder with ⟨hheld, -⟩ | ⟨hfree, hreturned⟩
      · exact (cut_of_holder hheld (stepped_reader_self hreader)).symm
      · rw [cut_of_free hfree, hreturned]
        rfl
    · have hsame : (server.stepped i reader moved).cut peer' = server.cut peer' := by
        cases hholder' : peer'.holder with
        | none => rw [cut_of_free hholder', cut_of_free hholder']
        | some j =>
          obtain ⟨reader', hreader', hid'⟩ := hlocks.holder id peer' j hold hholder'
          have hj : j ≠ i := by
            rintro rfl
            cases hreader.symm.trans hreader'
            exact hid hid'.symm
          rw [cut_of_holder hholder' (stepped_reader_of hj hreader'),
            cut_of_holder hholder' hreader']
      rw [hsame]
      exact h.cut id peer' hold hwhole
  · intro uuid stream peer' hissued' hpeer' hwhole
    rw [pushedTo_append]
    rcases of_getElem?_set hpeer' with ⟨hid, rfl⟩ | ⟨hid, hold⟩
    · obtain ⟨hwhole', -, hframes⟩ := hreads hwhole
      obtain ⟨rfl, rfl⟩ := hregistered.unique hissued' hissued (.inr hid)
      rw [hframes, pushedTo_self htarget, h.frames _ _ peer hissued hpeer hwhole']
    · have hother : ∀ message ∈ moved.pushed, message.2 ≠ uuid := by
        rintro message hmessage rfl
        obtain ⟨-, rfl⟩ := hregistered.unique hissued' hissued (.inl (htarget message hmessage))
        exact hid rfl
      rw [pushedTo_eq_nil hother, List.append_nil]
      exact h.frames uuid stream peer' hissued' hold hwhole
  · intro id peer' hpeer' hnot
    rcases of_getElem?_set hpeer' with ⟨rfl, -⟩ | ⟨-, hold⟩
    · exact absurd (List.mem_map_of_mem hissued) hnot
    · exact h.unread id peer' hold hnot
  · intro message hmessage
    rcases List.mem_append.mp hmessage with hold | hnew
    · exact h.pushed message hold
    · rw [htarget message hnew]
      exact List.mem_map_of_mem hissued

theorem step (h : server.HandsOver H pushed) (hregistered : server.Registered settings)
    (hlocks : server.Locks) (hframing : frameHeader settings.bytes settings.order = H)
    (hchange : server.Change input after output) :
    after.HandsOver H (pushed ++ output.pushed) := by
  have hquiet : ∀ {after : TcpServer}, after.HandsOver H pushed →
      after.HandsOver H (pushed ++ []) := by
    intro after hafter
    rwa [List.append_nil]
  cases hchange with
  | startRuntime => exact hquiet ⟨h.cut, h.frames, h.unread, h.pushed⟩
  | ran | authenticated => exact hquiet (h.operated hlocks _)
  | admitted fresh queue => exact hquiet (h.giveOut hregistered fresh queue)
  | connected => exact hquiet (h.accept hregistered _)
  | peer lookup opened consumed holder => exact hquiet (h.modified lookup opened consumed holder)
  | reader lookup stream moves => exact h.stepped hregistered hlocks hframing lookup stream moves

end HandsOver

end TcpServer

/-! ## The runs of a server -/

/-- The messages that were pushed in a run. -/
def pushes (ts : List TcpTransition) : List (List UInt8 × Uuid) :=
  ts.flatMap fun t => t.output.pushed

theorem Peer.whole_iff {H : Framing.Header UInt8} {peer : Peer} :
    peer.Whole H ↔ (Framing.parse H peer.consumed).ending ≠ .refused := by
  rw [Whole, Framing.feedAll_parse]
  exact not_congr Framing.Ending.state_eq_refused

section Runs
variable {settings : TcpSettingsServer} {ts : List TcpTransition} {server : TcpServer}

theorem handsOver_run (h : tcpMachine.Run (.new settings) ts server) :
    server.Locks ∧ server.HandsOver (frameHeader settings.bytes settings.order) (pushes ts) := by
  refine h.history (fun ts server => server.Locks ∧
    server.HandsOver (frameHeader settings.bytes settings.order) (pushes ts))
      ⟨.start, .start _⟩ ?_
  rintro ts t hrun ⟨hlocks, hhands⟩ hof
  have hregistered := registered_run hrun
  have hchange := step_change hof
  refine ⟨hlocks.step hregistered hchange, ?_⟩
  have hpushes : pushes (ts ++ [t]) = pushes ts ++ t.output.pushed := by
    simp only [pushes, List.flatMap_append, List.flatMap_singleton]
  rw [hpushes]
  exact hhands.step hregistered hlocks rfl hchange

/-- **The hand-over loses nothing.** In every run of a server and its readers, what is pushed for
a client are the complete frames of the bytes taken from its stream, in order, unless one of its
headers states more than `isize::MAX`; each client has one stream, and it alone; and nothing is
pushed for anybody else. -/
theorem handOver (settings : TcpSettingsServer) (ts : List TcpTransition) (server : TcpServer)
    (h : tcpMachine.Run (.new settings) ts server) :
    (∀ uuid stream, (uuid, stream) ∈ server.issued →
      ∃ peer, server.peers[stream.id]? = some peer ∧
        ((Framing.parse (frameHeader settings.bytes settings.order) peer.consumed).ending ≠
            .refused →
          pushedTo uuid (pushes ts) =
            (Framing.parse (frameHeader settings.bytes settings.order) peer.consumed).frames)) ∧
    (∀ uuid stream uuid' stream', (uuid, stream) ∈ server.issued →
      (uuid', stream') ∈ server.issued → (uuid = uuid' ↔ stream.id = stream'.id)) ∧
    ∀ uuid, uuid ∉ server.issued.map Prod.fst → pushedTo uuid (pushes ts) = [] := by
  have hregistered := registered_run h
  obtain ⟨-, hhands⟩ := handsOver_run h
  refine ⟨?_, ?_, ?_⟩
  · intro uuid stream hissued
    have hknown := hregistered.known _ (List.mem_append_left _ (List.mem_map_of_mem hissued))
    refine ⟨_, List.getElem?_eq_getElem hknown, fun hsizes => ?_⟩
    have hframes := hhands.frames uuid stream _ hissued (List.getElem?_eq_getElem hknown)
      (Peer.whole_iff.mpr hsizes)
    rw [hframes, Framing.feedAll_parse]
  · intro uuid stream uuid' stream' hissued hissued'
    constructor
    · intro heq
      rw [(hregistered.unique hissued hissued' (.inl heq)).2]
    · intro heq
      exact (hregistered.unique hissued hissued' (.inr heq)).1
  · intro uuid hnot
    refine pushedTo_eq_nil fun message hmessage heq => hnot ?_
    rw [← heq]
    exact hhands.pushed message hmessage

end Runs

/-- A client sends two messages, and is authenticated between them: its first reader reads the
one, its second reader the other. -/
def handOverInputs : List TcpInput :=
  [.startRuntime, .connect .stream, .portOp (.checkClientsConnected 7),
    .portOp .checkNotAuthenticatedClients, .send 0 [1, 0, 0, 0, 42], .reader 0, .reader 0,
    .reader 0, .reader 0, .reader 0, .reader 0, .reader 0, .reader 0, .authenticateClient 7,
    .send 0 [1, 0, 0, 0, 43], .reader 0, .reader 0, .reader 1, .reader 1, .reader 1, .reader 1,
    .reader 1, .reader 1]

def handOverRun : List TcpTransition × TcpServer :=
  (tcpMachine.exec (.new .default) handOverInputs).getD ([], .new .default)

theorem run_handOverRun : tcpMachine.Run (.new .default) handOverRun.1 handOverRun.2 := by
  have hexec : tcpMachine.exec (.new .default) handOverInputs = some handOverRun := rfl
  exact .of_exec hexec

theorem handOver_twoReaders :
    ∃ peer, handOverRun.2.peers[0]? = some peer ∧
      pushedTo 7 (pushes handOverRun.1) =
        (Framing.parse (frameHeader .u32 .littleEndian) peer.consumed).frames ∧
      peer.consumed = [1, 0, 0, 0, 42, 1, 0, 0, 0, 43] := by
  obtain ⟨hframes, -⟩ := handOver .default _ _ run_handOverRun
  obtain ⟨peer, hpeer, hpushed⟩ := hframes 7 ⟨0, .stream⟩ (by decide)
  cases hpeer
  refine ⟨_, rfl, hpushed (Peer.whole_iff.mp ?_), rfl⟩
  unfold Peer.Whole
  decide

end Inator
