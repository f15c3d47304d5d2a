import Inator.Verify.Attention
import Inator.Verify.Disconnect

/-! # A client whose stream has ended is reported

Every reader of a stream that has ended comes to its end and returns, and gives the lock of the
stream up for the next one (`Departs.quits`). The reader that has the status of the client leaves
its notification, and the call that takes it up removes the client for good (`client_departs`),
also where the client was authenticated in the meantime and an earlier report was in vain. -/

namespace Inator
open Machine Temporal Filter TcpServer

/-! ## One step -/

/-- No byte comes back. -/
theorem Reader.Moves.arrived_length {i : Nat} {reader : Reader} {peer : Peer} {port : ServerPort}
    {channelHolder : Option Nat} {moved : ReaderStep}
    (h : reader.Moves i peer port channelHolder moved) :
    moved.peer.arrived.length ≤ peer.arrived.length := by
  cases h with
  | took _ arrived | panicked _ arrived | finished _ arrived =>
    rw [arrived]
    exact Nat.le_succ _
  | locked | lockedChannel | drained | popped | handedOver | disconnected => exact le_rfl

namespace TcpServer
variable {settings : TcpSettingsServer} {server after : TcpServer} {input : TcpInput}
  {output : TcpOutput} {uuid : Uuid} {stream k : Nat}

/-- The stream has ended, and `k` bytes of it at most have not been taken. -/
def Ended (server : TcpServer) (stream k : Nat) : Prop :=
  ∃ peer, server.peers[stream]? = some peer ∧ peer.closed = true ∧ peer.arrived.length ≤ k

theorem Ended.step (h : server.Ended stream k) (hchange : server.Change input after output) :
    after.Ended stream k := by
  obtain ⟨peer, hpeer, hclosed, hlength⟩ := h
  have hlt := (List.getElem?_eq_some_iff.mp hpeer).1
  have hother : ∀ {id : Nat} {peer' : Peer}, stream ≠ id →
      (server.peers.set id peer')[stream]? = some peer := by
    intro id peer' hid
    rw [List.getElem?_set_ne (Ne.symm hid)]
    exact hpeer
  cases hchange with
  | startRuntime | ran | admitted | authenticated => exact ⟨peer, hpeer, hclosed, hlength⟩
  | connected =>
    refine ⟨peer, ?_, hclosed, hlength⟩
    rw [accept, List.getElem?_append_left hlt]
    exact hpeer
  | @peer id before peer' lookup opened =>
    have hid : stream ≠ id := by
      rintro rfl
      cases hpeer.symm.trans lookup
      cases hclosed.symm.trans opened
    exact ⟨peer, hother hid, hclosed, hlength⟩
  | @reader i reader before moved _ lookup moves =>
    by_cases hid : stream = reader.stream.id
    · subst hid
      cases hpeer.symm.trans lookup
      refine ⟨moved.peer, ?_, moves.bytes.2.trans hclosed, moves.arrived_length.trans hlength⟩
      rw [TcpServer.stepped, List.getElem?_set_self hlt]
    · exact ⟨peer, hother hid, hclosed, hlength⟩

/-- A client that is held no more does not come back. -/
theorem gone_step (hissued : uuid ∈ server.issued.map Prod.fst) (hgone : ¬server.port.Holds uuid)
    (hchange : server.Change input after output) : ¬after.port.Holds uuid := by
  cases step_accounting hchange with
  | kept _ _ holds => exact fun hholds => hgone ((holds uuid).mp hholds)
  | admitted _ fresh _ holds =>
    intro hholds
    rcases (holds uuid).mp hholds with rfl | hheld
    · exact fresh hissued
    · exact hgone hheld
  | reported _ _ _ _ holds => exact fun hholds => hgone ((holds uuid).mp hholds).1

/-- A client that was given out is held until it is reported. -/
theorem held_step (hissued : uuid ∈ server.issued.map Prod.fst → server.port.Holds uuid)
    (hafter : uuid ∈ after.issued.map Prod.fst) (hchange : server.Change input after output) :
    after.port.Holds uuid ∨ uuid ∈ output.returned := by
  cases step_accounting hchange with
  | kept _ issued holds =>
    rw [issued] at hafter
    exact .inl ((holds uuid).mpr (hissued hafter))
  | admitted _ _ issued holds =>
    rw [issued] at hafter
    refine .inl ((holds uuid).mpr ?_)
    exact (List.mem_cons.mp hafter).imp_right hissued
  | @reported uuid' _ _ _ _ returned issued holds =>
    rw [issued] at hafter
    by_cases huuid : uuid = uuid'
    · subst huuid
      exact .inr (returned ▸ List.mem_singleton_self _)
    · exact .inl ((holds uuid).mpr ⟨hissued hafter, fun heq => absurd heq huuid⟩)

/-- What a call that takes a notification up does. -/
theorem reported_step {isAuthenticated : Bool} {rest : List (Uuid × Bool)}
    (h : server.step (.portOp .checkClientsDiconnected) = some (after, output))
    (hpopped : server.port.clientDisconnected = (uuid, isAuthenticated) :: rest)
    (hother : ¬server.port.HoldsAs uuid (!isAuthenticated)) :
    uuid ∈ output.returned ∧ ¬after.port.Holds uuid := by
  obtain ⟨hport, hreturned⟩ := step_disconnects h
  obtain ⟨hreports, hholds⟩ := ServerPort.checkClientsDiconnected_cons (k := uuid) hpopped
  rw [hreturned, hport, hreports, hholds]
  exact ⟨List.mem_singleton_self _, fun hheld => hother (hheld.2 rfl)⟩

/-- No other step takes a notification up. -/
theorem Change.clientDisconnected (h : server.Change input after output)
    (hother : input ≠ .portOp .checkClientsDiconnected) :
    server.port.clientDisconnected <+: after.port.clientDisconnected := by
  cases h with
  | startRuntime | connected | peer | admitted => exact List.prefix_rfl
  | @ran op asked =>
    have heffect := op.run_effect server.port server.runtime
    change _ <+: (op.run server.port server.runtime).1.clientDisconnected
    generalize (op.run server.port server.runtime).1 = port at heffect
    cases heffect with
    | quiet _ _ disconnected => rw [disconnected]
    | marked | admitted => exact List.prefix_rfl
    | disconnected | disconnectedWaiting => exact absurd asked hother
  | @authenticated uuid =>
    change _ <+: (server.port.authenticateClient uuid server.runtime).1.clientDisconnected
    cases hinfos : server.port.notAuthenticatedListening.lookup uuid with
    | none =>
      rw [ServerPort.authenticateClient_none hinfos]
    | some infos =>
      rw [ServerPort.authenticateClient_some hinfos]
  | reader _ _ moves =>
    cases moves with
    | disconnected => exact List.prefix_append _ _
    | locked | lockedChannel | drained | popped | handedOver => exact List.prefix_rfl
    | took | panicked | finished => exact List.prefix_rfl

/-- A notification waits until it is taken up. -/
theorem notified_step (h : server.step input = some (after, output)) {notification : Uuid × Bool}
    (hqueued : notification ∈ server.port.clientDisconnected) :
    (input = .portOp .checkClientsDiconnected ∧
        ∃ rest, server.port.clientDisconnected = notification :: rest) ∨
      notification ∈ after.port.clientDisconnected ∧
        after.port.clientDisconnected.idxOf notification ≤
          server.port.clientDisconnected.idxOf notification ∧
        (input = .portOp .checkClientsDiconnected →
          after.port.clientDisconnected.idxOf notification <
            server.port.clientDisconnected.idxOf notification) := by
  by_cases hinput : input = .portOp .checkClientsDiconnected
  · subst hinput
    obtain ⟨first, rest, hqueue⟩ := List.exists_cons_of_ne_nil (List.ne_nil_of_mem hqueued)
    have hafter : after.port.clientDisconnected = rest := by
      rw [(step_disconnects h).1, ServerPort.checkClientsDiconnected, hqueue]
      obtain ⟨uuid, isAuthenticated⟩ := first
      cases isAuthenticated <;> rfl
    rw [hafter, hqueue]
    rw [hqueue] at hqueued
    by_cases heq : first = notification
    · subst heq
      exact .inl ⟨rfl, rest, rfl⟩
    · refine .inr ⟨(List.mem_cons.mp hqueued).resolve_left (Ne.symm heq), ?_⟩
      rw [List.idxOf_cons_ne _ heq]
      exact ⟨Nat.le_succ _, fun _ => Nat.lt_succ_self _⟩
  · obtain ⟨more, hmore⟩ := (step_change h).clientDisconnected hinput
    rw [← hmore]
    refine .inr ⟨List.mem_append_left _ hqueued, ?_, fun heq => absurd heq hinput⟩
    exact (List.idxOf_append_of_mem hqueued).le

/-- A reader of a stream that has ended need not wait for bytes. -/
theorem isSome_readerStep_ended {j : Nat} {reader : Reader} {state : Framing.State UInt8}
    (hreader : server.readers[j]? = some reader) (hphase : reader.phase = .reading state)
    (hended : server.Ended reader.stream.id k) : (server.readerStep j).isSome := by
  obtain ⟨peer, hpeer, hclosed, -⟩ := hended
  simp only [readerStep, hreader, hpeer, Reader.run, hphase, Option.isSome_map]
  cases peer.arrived with
  | nil => simp only [hclosed, if_true, Option.isSome_some]
  | cons b rest => rfl

end TcpServer

/-! ## In a course -/

section Course
variable {settings : TcpSettingsServer}

/-- No size on the stream is refused, and the notifications are taken up again and again. -/
structure Departs (c : Course tcpMachine (started settings)) (stream : Nat) : Prop
    extends Diligent c where
  whole : ∀ n peer, (c.state n).peers[stream]? = some peer →
    peer.Whole (frameHeader settings.bytes settings.order)
  reports : ∃ᶠ n in atTop, c.input n = some (.portOp .checkClientsDiconnected)

namespace Departs
open Diligent
variable {c : Course tcpMachine (started settings)} {stream n m j k : Nat}
  {who : Reader} {uuid : Uuid}

theorem ended_next {id : Nat} (h : (c.state n).Ended id k) : (c.state (n + 1)).Ended id k := by
  rcases c.step n with ⟨-, hsame⟩ | ⟨input, output, -, hstep⟩
  · rw [hsame]
    exact h
  · exact h.step (step_change hstep)

theorem ended_mono {id : Nat} (hle : n ≤ m) (h : (c.state n).Ended id k) :
    (c.state m).Ended id k := by
  induction m, hle using Nat.le_induction with
  | base => exact h
  | succ m _ ih => exact ended_next ih

/-- Nobody is authenticated any more, and the stream has ended with `k` bytes at most. -/
def Closing (c : Course tcpMachine (started settings)) (id k n : Nat) : Prop :=
  Calm c n ∧ (c.state n).Ended id k

theorem closing_mono {id : Nat} (hle : n ≤ m) (h : Closing c id k n) : Closing c id k m :=
  ⟨fun l hl => h.1 l (hle.trans hl), ended_mono hle h.2⟩

theorem closing_next {id : Nat} (h : Closing c id k n) : Closing c id k (n + 1) :=
  closing_mono (Nat.le_succ n) h

/-- The reader has the lock of its stream. -/
def Working (c : Course tcpMachine (started settings)) (j : Nat) (who : Reader) (n : Nat) : Prop :=
  ∃ phase, Reader.Holds { who with phase := phase } ∧ At c j who phase n

/-- The lock of the reader's stream is free, and its client was reported with its status, or was
authenticated after it was started. -/
def Quits (c : Course tcpMachine (started settings)) (who : Reader) (n : Nat) : Prop :=
  (∀ peer, (c.state n).peers[who.stream.id]? = some peer → peer.holder = none) ∧
    ((who.target, who.isAuthenticated) ∈ (c.state n).port.clientDisconnected ∨
      who.isAuthenticated = false ∧ (c.state n).Moved who.target)

/-- **A reader comes closer to the end of its stream**, or quits. -/
theorem reads_on (h : Departs c stream) (hstream : who.stream.id = stream) :
    LeadsTo (fun n => Closing c stream k n ∧ ∃ state, At c j who (.reading state) n)
      fun n => Quits c who n ∨ ∃ k' < k, Closing c stream k' n ∧ Working c j who n := by
  subst hstream
  have hown : ∀ n, Closing c who.stream.id k n → ∀ state, At c j who (.reading state) n →
      c.input n = some (.reader j) → Quits c who (n + 1) ∨
        ∃ k' < k, Closing c who.stream.id k' (n + 1) ∧ Working c j who (n + 1) := by
    rintro n ⟨hcalm, peer, hpeer, hclosed, hlength⟩ state hat hinput
    obtain ⟨peer', moved, hpeer', hmoves, hafter, -, hport, hat'⟩ := moves hinput hat
    cases hpeer.symm.trans hpeer'
    have horderly := orderly c n
    obtain ⟨-, hbytes, horder⟩ := horderly.registered.readers _ (List.mem_of_getElem? hat)
    rcases hmoves.holder fun hholds => horderly.locks.active j _ peer hat hholds hpeer with
      ⟨-, hholds⟩ | ⟨hfree, hreturned⟩
    · have hfewer : moved.peer.arrived.length < peer.arrived.length := by
        cases hmoves with
        | took _ arrived | panicked _ arrived | finished _ arrived =>
          rw [arrived]
          exact Nat.lt_succ_self _
        | disconnected => exact absurd rfl hholds.2
        | locked phase | lockedChannel phase | drained phase | popped phase | handedOver phase =>
          cases phase
      refine .inr ⟨moved.peer.arrived.length, hfewer.trans_le hlength, ⟨calm_next hcalm, ?_⟩, ?_⟩
      · exact ⟨moved.peer, hafter, hmoves.bytes.2.trans hclosed, le_rfl⟩
      · exact ⟨moved.phase, hholds, hat'⟩
    · refine .inl ⟨fun peer' hpeer' => ?_, ?_⟩
      · cases hafter.symm.trans hpeer'
        exact hfree
      · have hhands := (handsOver_run (run_of_started (c.run n))).2
        have hcut := fun hwhole => hhands.cut _ peer hpeer hwhole
        rw [horderly.locks.cut_eq hat hpeer hmoves] at hcut
        rcases hmoves.ends (by rw [hbytes, horder]) hcut (h.whole _ _ hafter) with
          hnot | ⟨hphase, -⟩ | hqueued
        · exact absurd hreturned hnot
        · cases hphase
        · exact .inl (hport ▸ hqueued)
  refine .ensures (h.readers j).weakly ?_ ?_ ?_
  · rintro n ⟨hclosing, state, hat⟩ -
    exact isSome_readerStep_ended hat rfl hclosing.2
  · rintro n ⟨hclosing, state, hat⟩ -
    by_cases hinput : c.input n = some (.reader j)
    · exact .inl (hown n hclosing state hat hinput)
    · exact .inr ⟨closing_next hclosing, state, stays hinput hat⟩
  · rintro n ⟨hclosing, state, hat⟩ - hinput
    exact hown n hclosing state hat hinput

/-- A reader that asks the channel reads on, or finds its own client there. -/
theorem asks (h : Departs c stream) :
    LeadsTo (fun n => Closing c stream k n ∧
        (At c j who .lockingChannel n ∨ At c j who .draining n))
      fun n => Quits c who n ∨ Closing c stream k n ∧ At c j who (.reading .start) n := by
  rintro n ⟨hclosing, hasks⟩
  have hstatus : who.isAuthenticated = false := by
    have hregistered := (orderly c n).registered
    rcases hasks with hat | hat
    · exact hregistered.asks { who with phase := .lockingChannel }
        (List.mem_of_getElem? hat) (.inl rfl)
    · exact hregistered.asks { who with phase := .draining }
        (List.mem_of_getElem? hat) (.inr rfl)
  have hdrained : ∃ m, n ≤ m ∧ Drained c j who m := by
    rcases hasks with hlocking | hdraining
    · obtain ⟨m, hm, hdraining⟩ := h.channelLocks n ⟨hclosing.1, hlocking⟩
      obtain ⟨l, hl, hdrained⟩ := h.drains m hdraining
      exact ⟨l, hm.trans hl, hdrained⟩
    · exact h.drains n ⟨hclosing.1, hdraining⟩
  obtain ⟨m, hm, -, hreading | ⟨-, hmoved, hfree⟩⟩ := hdrained
  · exact ⟨m, hm, .inr ⟨closing_mono hm hclosing, hreading⟩⟩
  · exact ⟨m, hm, .inl ⟨hfree, .inr ⟨hstatus, hmoved⟩⟩⟩

/-- **A reader that has the lock comes to the end of its stream.** -/
theorem works (h : Departs c stream) (hstream : who.stream.id = stream) (k : Nat) :
    LeadsTo (fun n => Closing c stream k n ∧ Working c j who n) (Quits c who) := by
  induction k using Nat.strong_induction_on with
  | _ k ih =>
    rintro n ⟨hclosing, phase, ⟨hlocking, hreturned⟩, hat⟩
    have hreads : ∃ m, n ≤ m ∧ (Quits c who m ∨
        Closing c stream k m ∧ ∃ state, At c j who (.reading state) m) := by
      cases phase with
      | locking => exact absurd rfl hlocking
      | returned => exact absurd rfl hreturned
      | reading state => exact ⟨n, le_rfl, .inr ⟨hclosing, state, hat⟩⟩
      | lockingChannel =>
        obtain ⟨m, hm, hend⟩ := h.asks n ⟨hclosing, .inl hat⟩
        exact ⟨m, hm, hend.imp_right fun hreading => ⟨hreading.1, .start, hreading.2⟩⟩
      | draining =>
        obtain ⟨m, hm, hend⟩ := h.asks n ⟨hclosing, .inr hat⟩
        exact ⟨m, hm, hend.imp_right fun hreading => ⟨hreading.1, .start, hreading.2⟩⟩
    obtain ⟨m, hm, hquits | hreading⟩ := hreads
    · exact ⟨m, hm, hquits⟩
    · obtain ⟨l, hl, hquits | ⟨k', hk', hworking⟩⟩ := h.reads_on hstream m hreading
      · exact ⟨l, hm.trans hl, hquits⟩
      · obtain ⟨p, hp, hquits⟩ := ih k' hk' l hworking
        exact ⟨p, hm.trans (hl.trans hp), hquits⟩

/-- The lock of the stream is free again and again. -/
theorem frees (h : Departs c stream) (k : Nat) :
    LeadsTo (Closing c stream k)
      fun n => ∀ peer, (c.state n).peers[stream]? = some peer → peer.holder = none := by
  intro n hclosing
  obtain ⟨peer, hpeer, -, -⟩ := hclosing.2
  cases hholder : peer.holder with
  | none =>
    refine ⟨n, le_rfl, fun peer' hpeer' => ?_⟩
    cases hpeer.symm.trans hpeer'
    exact hholder
  | some i =>
    obtain ⟨reader, hreader, hid, hholds⟩ := (orderly c n).busy.stream stream peer i hpeer hholder
    cases hid
    have hworking : Working c i reader n := ⟨reader.phase, hholds, hreader⟩
    obtain ⟨m, hm, hfree, -⟩ := h.works rfl k n ⟨hclosing, hworking⟩
    exact ⟨m, hm, hfree⟩

/-- **A reader that waits for the lock takes it.** -/
theorem locks (h : Departs c stream) (hstream : who.stream.id = stream) :
    LeadsTo (fun n => Closing c stream k n ∧ At c j who .locking n)
      fun n => Closing c stream k n ∧ Working c j who n := by
  have hown : ∀ n, At c j who .locking n → c.input n = some (.reader j) →
      Working c j who (n + 1) := by
    intro n hat hinput
    obtain ⟨peer, moved, -, hmoves, -, -, -, hat'⟩ := moves hinput hat
    cases hmoves with
    | locked => exact ⟨_, who.loopStart_holds, hat'⟩
    | lockedChannel phase | drained phase | popped phase | handedOver phase | took phase
    | panicked phase | finished phase | disconnected phase => cases phase
  have hnext : ∀ n, Closing c stream k n ∧ At c j who .locking n →
      (Closing c stream k (n + 1) ∧ Working c j who (n + 1)) ∨
        Closing c stream k (n + 1) ∧ At c j who .locking (n + 1) := by
    rintro n ⟨hclosing, hat⟩
    by_cases hinput : c.input n = some (.reader j)
    · exact .inl ⟨closing_next hclosing, hown n hat hinput⟩
    · exact .inr ⟨closing_next hclosing, stays hinput hat⟩
  have hfrees : LeadsTo (fun n => (Closing c stream k n ∧ At c j who .locking n) ∧
      Closing c stream k n) fun n => (Closing c stream k n ∧ Working c j who n) ∨
        (Closing c stream k n ∧ At c j who .locking n) ∧
          ∀ peer, (c.state n).peers[stream]? = some peer → peer.holder = none :=
    .along hnext (h.frees k)
  refine .ensures_strongly (h.readers j) ?_ (fun n hP _ => hnext n hP) ?_
  · rintro n ⟨hclosing, hat⟩
    obtain ⟨m, hm, hdone | ⟨⟨⟨-, peer, hpeer, -⟩, hat'⟩, hfree⟩⟩ :=
      hfrees n ⟨⟨hclosing, hat⟩, hclosing⟩
    · exact ⟨m, hm, .inl hdone⟩
    · exact ⟨m, hm, .inr (able hat' (hstream ▸ hpeer) (hfree peer hpeer))⟩
  · rintro n ⟨hclosing, hat⟩ - hinput
    exact ⟨closing_next hclosing, hown n hat hinput⟩

/-- **A reader that has not returned quits.** -/
theorem quits (h : Departs c stream) (hstream : who.stream.id = stream) :
    LeadsTo (fun n => Closing c stream k n ∧ ∃ phase, phase ≠ .returned ∧ At c j who phase n)
      (Quits c who) := by
  rintro n ⟨hclosing, phase, hreturned, hat⟩
  by_cases hlocking : phase = .locking
  · subst hlocking
    obtain ⟨m, hm, hworking⟩ := h.locks hstream n ⟨hclosing, hat⟩
    obtain ⟨l, hl, hquits⟩ := h.works hstream k m hworking
    exact ⟨l, hm.trans hl, hquits⟩
  · exact h.works hstream k n ⟨hclosing, phase, ⟨hlocking, hreturned⟩, hat⟩

/-! ### The notification -/

/-- A call takes the notification up. -/
def Taken (c : Course tcpMachine (started settings)) (notification : Uuid × Bool) (n : Nat) :
    Prop :=
  c.input n = some (.portOp .checkClientsDiconnected) ∧
    ∃ rest, (c.state n).port.clientDisconnected = notification :: rest

/-- **A notification is taken up.** -/
theorem taken (h : Departs c stream) (notification : Uuid × Bool) :
    LeadsTo (fun n => notification ∈ (c.state n).port.clientDisconnected)
      (Taken c notification) := by
  have hfair : WeaklyFair (fun _ => True) fun n =>
      c.input n = some (.portOp .checkClientsDiconnected) := fun _ => h.reports
  refine .descends (fun n => (c.state n).port.clientDisconnected.idxOf notification) hfair
    (fun _ _ _ => trivial) (fun n hqueued hnot => ?_) fun n hqueued hnot hinput => ?_
  · rcases c.step n with ⟨-, hsame⟩ | ⟨input, output, hinput, hstep⟩
    · rw [hsame]
      exact .inr ⟨hqueued, le_rfl⟩
    · rcases notified_step hstep hqueued with ⟨rfl, hhead⟩ | hnext
      · exact absurd ⟨hinput, hhead⟩ hnot
      · exact .inr ⟨hnext.1, hnext.2.1⟩
  · rcases c.step n with ⟨hidle, -⟩ | ⟨input, output, hinput', hstep⟩
    · cases hinput.symm.trans hidle
    · rcases notified_step hstep hqueued with ⟨-, hhead⟩ | hnext
      · exact absurd ⟨hinput, hhead⟩ hnot
      · exact .inr ⟨hnext.1, hnext.2.2 (Option.some.inj (hinput'.symm.trans hinput))⟩

/-- The client was given out, and is in no map any more. -/
def Away (c : Course tcpMachine (started settings)) (uuid : Uuid) (n : Nat) : Prop :=
  uuid ∈ (c.state n).issued.map Prod.fst ∧ ¬(c.state n).port.Holds uuid

theorem issued_mono {client : Uuid × Stream} (hle : n ≤ m) (h : client ∈ (c.state n).issued) :
    client ∈ (c.state m).issued := by
  induction m, hle using Nat.le_induction with
  | base => exact h
  | succ m _ ih => exact issued_next ih

theorem moved_mono (hle : n ≤ m) (h : (c.state n).Moved uuid) : (c.state m).Moved uuid := by
  induction m, hle using Nat.le_induction with
  | base => exact h
  | succ m _ ih => exact moved_next ih

/-- The call that takes a notification up removes its client, unless the other map has it. -/
theorem away_of_taken {client : Uuid × Stream} {isAuthenticated : Bool}
    (hissued : client ∈ (c.state n).issued) (htaken : Taken c (client.1, isAuthenticated) n)
    (hother : ¬(c.state n).port.HoldsAs client.1 (!isAuthenticated)) :
    Away c client.1 (n + 1) := by
  obtain ⟨hinput, rest, hpopped⟩ := htaken
  rcases c.step n with ⟨hidle, -⟩ | ⟨input, output, hinput', hstep⟩
  · cases hinput.symm.trans hidle
  · cases hinput.symm.trans hinput'
    exact ⟨List.mem_map_of_mem (issued_next hissued), (reported_step hstep hpopped hother).2⟩

variable {kind : StreamKind}

/-- The reader of an entry with a status quits, or has done so. -/
theorem tended (h : Departs c stream) {isAuthenticated : Bool}
    (hclosing : Closing c stream k n) (hissued : (uuid, ⟨stream, kind⟩) ∈ (c.state n).issued)
    (htends : (c.state n).Tends uuid isAuthenticated) : ∃ m, n ≤ m ∧
      ((uuid, isAuthenticated) ∈ (c.state m).port.clientDisconnected ∨
        isAuthenticated = false ∧ (c.state m).Moved uuid) := by
  rcases htends with ⟨reader, hmem, rfl, rfl, hphase⟩ | hqueued
  · obtain ⟨j, hj⟩ := List.mem_iff_getElem?.mp hmem
    have hregistered := (orderly c n).registered
    obtain ⟨-, hstream⟩ := hregistered.unique (hregistered.readers reader hmem).1 hissued (.inl rfl)
    have hid : reader.stream.id = stream := congrArg Stream.id hstream
    obtain ⟨m, hm, -, hquits⟩ := h.quits hid n ⟨hclosing, reader.phase, hphase, hj⟩
    exact ⟨m, hm, hquits⟩
  · exact ⟨n, le_rfl, .inl hqueued⟩

/-- The sizes on the stream of an entry are not refused. -/
theorem sizes (h : Departs c stream) {infos : ListeningInfos}
    (hissued : (uuid, ⟨stream, kind⟩) ∈ (c.state n).issued)
    (hentry : (c.state n).port.Entry uuid infos) :
    (c.state n).Sizes (frameHeader settings.bytes settings.order) infos.readWriteType := by
  have hregistered := (orderly c n).registered
  obtain ⟨-, hstream⟩ :=
    hregistered.unique (hregistered.entries uuid infos hentry) hissued (.inl rfl)
  rw [hstream]
  exact fun peer hpeer => Peer.whole_iff.mp (h.whole n peer hpeer)

/-- **An authenticated client goes.** -/
theorem listening_goes (h : Departs c stream) :
    LeadsTo (fun n => Closing c stream k n ∧ (uuid, ⟨stream, kind⟩) ∈ (c.state n).issued ∧
      uuid ∈ (c.state n).port.listeningClients) (Away c uuid) := by
  rintro n ⟨hclosing, hissued, hlistening⟩
  have horderly := orderly c n
  obtain ⟨infos, hinfos⟩ := AssocMap.lookup_of_mem hlistening
  have htends := horderly.attended.listening uuid infos hinfos (h.sizes hissued (.inr hinfos))
  obtain ⟨m, hm, hqueued | ⟨hstatus, -⟩⟩ := h.tended hclosing hissued htends
  · obtain ⟨l, hl, htaken⟩ := h.taken _ m hqueued
    have hmoved : (c.state l).Moved uuid := moved_mono (hm.trans hl)
      ⟨List.mem_map_of_mem hissued, horderly.registered.apart uuid hlistening⟩
    exact ⟨l + 1, by omega, away_of_taken (issued_mono (hm.trans hl) hissued) htaken hmoved.2⟩
  · cases hstatus

/-- **A client that is heard goes**, whether it is authenticated in the meantime or not. -/
theorem heard_goes (h : Departs c stream) :
    LeadsTo (fun n => Closing c stream k n ∧ (uuid, ⟨stream, kind⟩) ∈ (c.state n).issued ∧
      (c.state n).Heard uuid) (Away c uuid) := by
  rintro n ⟨hclosing, hissued, hlistening | ⟨infos, hinfos, hmarked⟩⟩
  · exact h.listening_goes n ⟨hclosing, hissued, hlistening⟩
  have hlater : ∀ m, n ≤ m → uuid ∈ (c.state m).port.listeningClients →
      ∃ l, n ≤ l ∧ Away c uuid l := by
    intro m hm hlistening
    obtain ⟨l, hl, haway⟩ :=
      h.listening_goes m ⟨closing_mono hm hclosing, issued_mono hm hissued, hlistening⟩
    exact ⟨l, hm.trans hl, haway⟩
  have htends :=
    (orderly c n).attended.waiting uuid infos hinfos hmarked (h.sizes hissued (.inl hinfos))
  obtain ⟨m, hm, hqueued | ⟨-, hmoved⟩⟩ := h.tended hclosing hissued htends
  · obtain ⟨l, hl, htaken⟩ := h.taken _ m hqueued
    by_cases hlistening : uuid ∈ (c.state l).port.listeningClients
    · exact hlater l (hm.trans hl) hlistening
    · exact ⟨l + 1, by omega,
        away_of_taken (issued_mono (hm.trans hl) hissued) htaken hlistening⟩
  · by_cases hlistening : uuid ∈ (c.state m).port.listeningClients
    · exact hlater m hm hlistening
    · exact ⟨m, hm, hmoved.1, fun hholds => hholds.elim hlistening hmoved.2⟩

/-- **A client whose stream has ended goes.** -/
theorem goes (h : Departs c stream) :
    LeadsTo (fun n => (c.state n).Ended stream k ∧ (uuid, ⟨stream, kind⟩) ∈ (c.state n).issued)
      (Away c uuid) := by
  rintro n ⟨hended, hissued⟩
  obtain ⟨calm, hcalm⟩ := eventually_atTop.mp h.settles
  obtain ⟨m, hm, hinput⟩ := frequently_atTop.mp h.listens (max n calm)
  obtain ⟨hn, hm⟩ := max_le_iff.mp hm
  have hissued' := issued_mono hn hissued
  by_cases hholds : (c.state m).port.Holds uuid
  · have hhas : (c.state m).Has (fun _ => True) uuid :=
      hholds.imp_right fun hwaiting =>
        (AssocMap.lookup_of_mem hwaiting).imp fun infos hinfos => ⟨hinfos, trivial⟩
    have hheard : (c.state (m + 1)).Heard uuid := by
      rcases c.step m with ⟨hidle, -⟩ | ⟨input, output, hinput', hstep⟩
      · cases hinput.symm.trans hidle
      · cases hinput.symm.trans hinput'
        exact hhas.marked hstep
    have hclosing : Closing c stream k (m + 1) := by
      refine ⟨fun l hl => hcalm l (by omega), ?_⟩
      exact ended_mono (by omega) hended
    obtain ⟨l, hl, haway⟩ := h.heard_goes (m + 1) ⟨hclosing, issued_next hissued', hheard⟩
    exact ⟨l, by omega, haway⟩
  · exact ⟨m, hn, List.mem_map_of_mem hissued', hholds⟩

end Departs

/-- A client was given out and its stream ends, where no size is refused. Each reader that can
again and again take its step does so, the clients that wait to be authenticated are heard and the
notifications are taken up again and again, and from some time on nobody is authenticated. -/
structure Leaves (e : Execution tcpMachine (started settings)) (uuid : Uuid) (stream : Stream) :
    Prop where
  ended : ∃ n peer, (uuid, stream) ∈ (e.state n).issued ∧
    (e.state n).peers[stream.id]? = some peer ∧ peer.closed = true
  sizes : ∀ n, (e.state n).Sizes (frameHeader settings.bytes settings.order) stream
  readers : ∀ i, StronglyFair (fun n => ((e.state n).readerStep i).isSome)
    fun n => e.input n = .reader i
  listens : ∃ᶠ n in atTop, e.input n = .portOp .checkNotAuthenticatedClients
  reports : ∃ᶠ n in atTop, e.input n = .portOp .checkClientsDiconnected
  settles : ∀ᶠ n in atTop, ∀ uuid, e.input n ≠ .authenticateClient uuid

theorem Leaves.departs {e : Execution tcpMachine (started settings)} {uuid : Uuid}
    {stream : Stream} (h : Leaves e uuid stream) : Departs e.course stream.id where
  whole n peer hpeer := Peer.whole_iff.mpr (h.sizes n peer hpeer)
  readers i hcan := (h.readers i hcan).mono fun _ hinput => congrArg some hinput
  listens := h.listens.mono fun _ hinput => congrArg some hinput
  reports := h.reports.mono fun _ hinput => congrArg some hinput
  settles := h.settles.mono fun _ hnobody uuid hinput => hnobody uuid (Option.some.inj hinput)

/-- **A client whose stream has ended is reported and removed for good**, whatever the other
clients do, and whenever it is authenticated. -/
theorem client_departs (settings : TcpSettingsServer)
    (e : Execution tcpMachine (started settings)) (uuid : Uuid) (stream : Stream)
    (h : Leaves e uuid stream) :
    ∃ m, uuid ∈ (e.output m).returned ∧ ∀ l, m < l → ¬(e.state l).port.Holds uuid := by
  obtain ⟨n, peer, hissued, hpeer, hclosed⟩ := h.ended
  have hissued' : (uuid, ⟨stream.id, stream.kind⟩) ∈ (e.course.state n).issued := hissued
  obtain ⟨a, -, haway⟩ := h.departs.goes n ⟨⟨peer, hpeer, hclosed, le_rfl⟩, hissued'⟩
  have hexists : ∃ a, Departs.Away e.course uuid a := ⟨a, haway⟩
  classical
  -- the call is the step to the first time at which the client is away
  obtain ⟨m, hm⟩ : ∃ m, Nat.find hexists = m + 1 := by
    refine Nat.exists_eq_succ_of_ne_zero fun hzero => ?_
    have hstart := (Nat.find_spec hexists).1
    rw [hzero] at hstart
    change uuid ∈ (e.state 0).issued.map Prod.fst at hstart
    rw [e.start] at hstart
    cases hstart
  have hfirst : Departs.Away e.course uuid (m + 1) := hm ▸ Nat.find_spec hexists
  have hbefore : ¬Departs.Away e.course uuid m := Nat.find_min hexists (by omega)
  have hchange : (e.state m).Change (e.input m) (e.state (m + 1)) (e.output m) :=
    step_change (e.step m)
  refine ⟨m, ?_, fun l hl => ?_⟩
  · have hheld : uuid ∈ (e.state m).issued.map Prod.fst → (e.state m).port.Holds uuid :=
      fun hissued => not_not.mp fun hgone => hbefore ⟨hissued, hgone⟩
    exact (held_step hheld hfirst.1 hchange).resolve_left hfirst.2
  · have hstays : Departs.Away e.course uuid l := by
      induction l, hl using Nat.le_induction with
      | base => exact hfirst
      | succ l _ ih =>
        have hnext : (e.state l).Change (e.input l) (e.state (l + 1)) (e.output l) :=
          step_change (e.step l)
        exact ⟨List.map_subset _ hnext.issued ih.1, gone_step ih.1 ih.2 hnext⟩
    exact hstays.2

end Course

namespace Sample

/-- A client sends a message and hangs up, and it is authenticated after its first reader has
reported it: the first call returns a client that is still held. -/
def leavingInputs : List TcpInput :=
  [.connect .stream, .portOp (.checkClientsConnected 7), .portOp .checkNotAuthenticatedClients,
    .send 0 [1, 0, 0, 0, 42], .close 0, .reader 0, .reader 0, .reader 0, .reader 0, .reader 0,
    .reader 0, .reader 0, .reader 0, .reader 0, .reader 0, .reader 0, .authenticateClient 7,
    .portOp .checkClientsDiconnected, .reader 1, .reader 1, .portOp .checkClientsDiconnected]

def leavingRun : List TcpTransition × TcpServer :=
  (tcpMachine.exec (started .default) leavingInputs).getD ([], started .default)

/-- The frames go on. -/
def leavingRest (k : Nat) : TcpInput :=
  if k % 2 = 0 then .portOp .checkNotAuthenticatedClients else .portOp .checkClientsDiconnected

theorem exec_leaving : tcpMachine.exec (started .default) leavingInputs =
    some (leavingRun.1, leavingRun.2) := rfl

theorem rest_leaving (k : Nat) : ∃ o, tcpMachine.step leavingRun.2 (leavingRest k) =
    some (leavingRun.2, o) := by
  unfold leavingRest
  split
  · exact ⟨TcpServer.quiet, rfl⟩
  · exact ⟨TcpServer.quiet, rfl⟩

def leaving : Execution tcpMachine (started .default) := .resting exec_leaving rest_leaving

/-- No size on the stream of the client was refused so far. -/
def wholeSoFar (server : TcpServer) : Bool :=
  server.peers.all fun peer =>
    decide ((Framing.feedAll (frameHeader .u32 .littleEndian) .start peer.consumed).1 ≠ .refused)

theorem sizes_of_wholeSoFar {server : TcpServer} (h : wholeSoFar server = true) :
    server.Sizes (frameHeader .u32 .littleEndian) ⟨0, .stream⟩ := by
  intro peer hpeer
  have hwhole := of_decide_eq_true (List.all_eq_true.mp h peer (List.mem_of_getElem? hpeer))
  exact Peer.whole_iff.mp hwhole

theorem leaving_leaves : Leaves leaving 7 ⟨0, .stream⟩ := by
  have hend : ∀ n, leavingInputs.length ≤ n → leaving.state n = leavingRun.2 :=
    fun n hn => Execution.resting_state exec_leaving rest_leaving hn
  have hinput : ∀ n, leavingInputs.length ≤ n →
      leaving.input n = leavingRest (n - leavingInputs.length) :=
    fun n hn => Execution.resting_input exec_leaving rest_leaving hn
  have hoften : ∀ r < 2, ∃ᶠ n in atTop, leaving.input n = leavingRest r := by
    intro r hr
    refine frequently_atTop.mpr fun n => ⟨leavingInputs.length + (2 * n + r), by omega, ?_⟩
    rw [hinput _ (Nat.le_add_right _ _), Nat.add_sub_cancel_left, leavingRest, leavingRest,
      Nat.mul_add_mod, Nat.mod_eq_of_lt hr]
  have hall : leavingRun.1.all (fun t => wholeSoFar t.pre) = true := rfl
  have hlast : wholeSoFar leavingRun.2 = true := rfl
  refine ⟨⟨leavingInputs.length, ?_⟩, fun n => sizes_of_wholeSoFar ?_, fun i => .of_never ?_,
    hoften 0 Nat.two_pos, hoften 1 Nat.one_lt_two, ?_⟩
  · rw [hend _ le_rfl]
    exact ⟨_, List.mem_singleton_self _, rfl, rfl⟩
  · rcases Execution.resting_transition exec_leaving rest_leaving n with ht | ⟨hn, -⟩
    · exact List.all_eq_true.mp hall _ ht
    · rw [hend n hn]
      exact hlast
  · refine eventually_atTop.mpr ⟨leavingInputs.length, fun n hn => ?_⟩
    rw [hend n hn]
    rcases i with _ | _ | i <;> exact Bool.false_ne_true
  · refine eventually_atTop.mpr ⟨leavingInputs.length, fun n hn uuid hauthenticates => ?_⟩
    have hrest := (hinput n hn).symm.trans hauthenticates
    unfold leavingRest at hrest
    split at hrest <;> cases hrest

end Sample

theorem client_departs_leaving : ∃ m, 7 ∈ (Sample.leaving.output m).returned ∧
    ∀ l, m < l → ¬(Sample.leaving.state l).port.Holds 7 :=
  client_departs .default Sample.leaving 7 ⟨0, .stream⟩ Sample.leaving_leaves

end Inator
