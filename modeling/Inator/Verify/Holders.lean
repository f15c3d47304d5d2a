import Inator.Verify.HandOver

/-! # The readers that have the locks

A reader is moved by its own steps only, and in each of them it may wait for one lock. Who has a
lock is at work with it: a reader on its way has that of its stream, and a reader that drains the
channel of the authenticated clients has that of the channel. -/

namespace Inator
open TcpServer

/-- Who has a lock is at work with it. -/
structure TcpServer.Busy (server : TcpServer) : Prop where
  stream : ∀ (id : Nat) (peer : Peer) (i : Nat), server.peers[id]? = some peer →
    peer.holder = some i →
      ∃ reader, server.readers[i]? = some reader ∧ reader.stream.id = id ∧ reader.Holds
  channel : ∀ i, server.channelHolder = some i →
    ∃ reader, server.readers[i]? = some reader ∧ reader.phase = .draining
  draining : ∀ (i : Nat) (reader : Reader), server.readers[i]? = some reader →
    reader.phase = .draining → server.channelHolder = some i

/-- **Who has the lock of the channel.** A reader drains the channel with it, and gives it up when
it has done so. -/
theorem Reader.Moves.channel {i : Nat} {reader : Reader} {peer : Peer} {port : ServerPort}
    {channelHolder : Option Nat} {moved : ReaderStep}
    (h : reader.Moves i peer port channelHolder moved)
    (hdraining : reader.phase = .draining → channelHolder = some i) :
    moved.phase = .draining ∧ moved.channelHolder = some i ∧
        (channelHolder = none ∨ channelHolder = some i) ∨
      moved.phase ≠ .draining ∧
        (reader.phase = .draining ∧ moved.channelHolder = none ∨
          reader.phase ≠ .draining ∧ moved.channelHolder = channelHolder) := by
  have hstart : reader.loopStart ≠ .draining := by
    unfold loopStart
    cases reader.isAuthenticated <;> exact nofun
  have hother : ∀ {phase}, reader.phase = phase → phase ≠ .draining → reader.phase ≠ .draining := by
    rintro phase rfl hphase
    exact hphase
  cases h with
  | lockedChannel _ free => exact .inl ⟨rfl, rfl, .inl free⟩
  | popped phase => exact .inl ⟨rfl, hdraining phase, .inr (hdraining phase)⟩
  | drained phase | handedOver phase => exact .inr ⟨nofun, .inl ⟨phase, rfl⟩⟩
  | locked phase | finished phase => exact .inr ⟨hstart, .inr ⟨hother phase nofun, rfl⟩⟩
  | took phase | panicked phase | disconnected phase =>
    exact .inr ⟨nofun, .inr ⟨hother phase nofun, rfl⟩⟩

/-- The reader need not wait: its lock is free, or a byte is there. -/
def Reader.Able (reader : Reader) (peer : Peer) (channelHolder : Option Nat) : Prop :=
  match reader.phase with
  | .locking => peer.holder = none
  | .lockingChannel => channelHolder = none
  | .draining => True
  | .reading _ => peer.arrived ≠ []
  | .returned => False

namespace TcpServer
variable {settings : TcpSettingsServer} {server after : TcpServer} {input : TcpInput}
  {output : TcpOutput}

namespace Busy

theorem start (settings : TcpSettingsServer) : (new settings).Busy where
  stream id peer i h := by cases h
  channel i h := by cases h
  draining i reader h := by cases h

/-- A reader that was just spawned does not drain the channel. -/
theorem operated (h : server.Busy) (result : ServerPort × List Task) :
    (server.operated result).Busy where
  stream id peer i hpeer hholder := by
    obtain ⟨reader, hreader, hid, hholds⟩ := h.stream id peer i hpeer hholder
    exact ⟨reader, operated_reader_of hreader, hid, hholds⟩
  channel i hholder := by
    obtain ⟨reader, hreader, hphase⟩ := h.channel i hholder
    exact ⟨reader, operated_reader_of hreader, hphase⟩
  draining i reader hreader hphase := by
    rcases operated_reader hreader with hold | hnew
    · exact h.draining i reader hold hphase
    · refine absurd ⟨?_, ?_⟩ hnew <;> rw [hphase] <;> exact nofun

theorem stepped (h : server.Busy) (hlocks : server.Locks) {i : Nat} {reader : Reader}
    {peer : Peer} {moved : ReaderStep} (hreader : server.readers[i]? = some reader)
    (hpeer : server.peers[reader.stream.id]? = some peer)
    (hmoves : reader.Moves i peer server.port server.channelHolder moved) :
    (server.stepped i reader moved).Busy := by
  have hself : (server.stepped i reader moved).readers[i]? =
      some { reader with phase := moved.phase } := stepped_reader_self hreader
  constructor
  · intro id peer' j hpeer' hholder'
    rcases of_getElem?_set hpeer' with ⟨rfl, rfl⟩ | ⟨hid, hold⟩
    · rcases hmoves.holder fun hholds => hlocks.active i reader peer hreader hholds hpeer with
        ⟨hheld, hholds⟩ | ⟨hfree, -⟩
      · cases hheld.symm.trans hholder'
        exact ⟨_, hself, rfl, hholds⟩
      · cases hfree.symm.trans hholder'
    · obtain ⟨reader', hreader', hid', hholds'⟩ := h.stream id peer' j hold hholder'
      have hj : j ≠ i := by
        rintro rfl
        cases hreader.symm.trans hreader'
        exact hid hid'.symm
      exact ⟨reader', stepped_reader_of hj hreader', hid', hholds'⟩
  · intro j hholder
    rcases hmoves.channel (h.draining i reader hreader) with ⟨hphase, hheld, -⟩ |
      ⟨-, ⟨-, hfree⟩ | ⟨hphase, hsame⟩⟩
    · cases hheld.symm.trans hholder
      exact ⟨_, hself, hphase⟩
    · cases hfree.symm.trans hholder
    · obtain ⟨reader', hreader', hphase'⟩ := h.channel j (hsame.symm.trans hholder)
      have hj : j ≠ i := by
        rintro rfl
        cases hreader.symm.trans hreader'
        exact hphase hphase'
      exact ⟨reader', stepped_reader_of hj hreader', hphase'⟩
  · intro j reader' hreader' hphase'
    rcases of_getElem?_set hreader' with ⟨rfl, rfl⟩ | ⟨hj, hold⟩
    · rcases hmoves.channel (h.draining j reader hreader) with ⟨-, hheld, -⟩ | ⟨hnot, -⟩
      · exact hheld
      · exact absurd hphase' hnot
    · have hheld' := h.draining j reader' hold hphase'
      -- the lock is with another reader
      rcases hmoves.channel (h.draining i reader hreader) with ⟨-, -, hfree | hheld⟩ |
        ⟨-, ⟨hphase, -⟩ | ⟨-, hsame⟩⟩
      · cases hfree.symm.trans hheld'
      · exact absurd (Option.some.inj (hheld'.symm.trans hheld)) hj
      · have hheld := h.draining i reader hreader hphase
        exact absurd (Option.some.inj (hheld'.symm.trans hheld)) hj
      · exact hsame.trans hheld'

theorem step (h : server.Busy) (hlocks : server.Locks)
    (hchange : server.Change input after output) : after.Busy := by
  cases hchange with
  | startRuntime | admitted => exact ⟨h.stream, h.channel, h.draining⟩
  | ran | authenticated => exact h.operated _
  | connected =>
    refine ⟨fun id peer i hpeer hholder => ?_, h.channel, h.draining⟩
    rcases accept_peer hpeer with hold | ⟨-, rfl⟩
    · exact h.stream id peer i hold hholder
    · cases hholder
  | @peer stream before peer lookup opened consumed holder =>
    refine ⟨fun id peer' i hpeer' hholder => ?_, h.channel, h.draining⟩
    rcases of_getElem?_set hpeer' with ⟨rfl, rfl⟩ | ⟨-, hold⟩
    · rw [holder] at hholder
      exact h.stream id before i lookup hholder
    · exact h.stream id peer' i hold hholder
  | reader lookup stream moves => exact h.stepped hlocks lookup stream moves

end Busy

theorem busy_run {ts : List TcpTransition} (h : tcpMachine.Run (.new settings) ts server) :
    server.Busy := by
  refine h.history (fun _ server => server.Busy) (.start settings) ?_
  intro ts t hrun hbusy hof
  exact hbusy.step (handsOver_run hrun).1 (step_change hof)

/-- Two readers that drain the channel are the same. -/
theorem Busy.eq (h : server.Busy) {i j : Nat} {reader reader' : Reader}
    (hreader : server.readers[i]? = some reader) (hphase : reader.phase = .draining)
    (hreader' : server.readers[j]? = some reader') (hphase' : reader'.phase = .draining) :
    i = j := by
  have hheld := h.draining i reader hreader hphase
  exact Option.some.inj (hheld.symm.trans (h.draining j reader' hreader' hphase'))

/-! ## One step -/

/-- **A reader is moved by its own steps only.** -/
theorem lookup_other (h : server.step input = some (after, output)) {j : Nat} {reader : Reader}
    (hother : input ≠ .reader j) (hreader : server.readers[j]? = some reader) :
    after.readers[j]? = some reader := by
  cases input with
  | startRuntime | connect =>
    cases h
    exact hreader
  | portOp op =>
    simp only [step] at h
    split at h
    · cases h
    · unfold portOp at h
      split at h
      · cases h
      · cases h
        exact operated_reader_of hreader
  | authenticateClient uuid =>
    cases h
    exact operated_reader_of hreader
  | send | close | fail =>
    simp only [step, modifyPeer] at h
    split at h
    · cases h
    · split at h
      · cases h
      · cases h
        exact hreader
  | reader i =>
    obtain ⟨reader', peer, moved, -, -, -, rfl, -⟩ := readerStep_spec h
    exact stepped_reader_of (fun heq => hother (heq ▸ rfl)) hreader

theorem isSome_readerStep {j : Nat} {reader : Reader} {peer : Peer}
    (hreader : server.readers[j]? = some reader)
    (hpeer : server.peers[reader.stream.id]? = some peer)
    (hable : reader.Able peer server.channelHolder) : (server.readerStep j).isSome := by
  simp only [readerStep, hreader, hpeer, Option.isSome_map]
  unfold Reader.Able at hable
  unfold Reader.run
  cases hphase : reader.phase with
  | locking =>
    rw [hphase] at hable
    have hfree : peer.holder = none := hable
    simp only [hfree]
    rfl
  | lockingChannel =>
    rw [hphase] at hable
    have hfree : server.channelHolder = none := hable
    simp only [hfree]
    rfl
  | draining =>
    cases hqueue : server.port.clientAuthenticated with
    | nil => rfl
    | cons uuid rest =>
      dsimp only
      split <;> rfl
  | reading state =>
    rw [hphase] at hable
    obtain ⟨b, rest, harrived⟩ := List.exists_cons_of_ne_nil (show peer.arrived ≠ [] from hable)
    simp only [harrived]
    rfl
  | returned =>
    rw [hphase] at hable
    cases hable

end TcpServer

end Inator
