import Inator.Verify.Sending

/-! # What a server and its clients make of each other's messages

With any number of clients, of strangers and of other servers, and in any order of steps: every
message that the server dispatches for a client was handed to `send_message` by the program at the
other end of the client's stream, and every message that a client reads from the server was sent by
the server to that client (`dispatched_sent`, `read_sent`). None comes twice, and those of one
stream come in the order in which they were written. The stream itself is to be sound: both ends
have the same settings, its messages fit them, and no write to it fails. Of the others nothing is
asked. -/

namespace Inator

/-! ## What a stream carries -/

/-- The reader at the other end gets the message as it was written. -/
def StreamFraming.Legible (framing : StreamFraming) (buf : List UInt8) : Prop :=
  ∀ bytes order, framing = some (bytes, order) → buf.length ≤ isizeMax ∧
    (frameHeader bytes order).size (headerOf bytes order buf.length) = buf.length

/-- The stream carries these messages whole, and nothing after them. -/
def Transit.Holds (transit : Transit) (framing : StreamFraming) (queue : List (List UInt8)) :
    Prop :=
  match framing with
  | some (bytes, order) =>
    transit.bytes = (queue.map fun buf => headerOf bytes order buf.length ++ buf).flatten
  | none => transit.messages = queue

namespace Transit
variable {transit after : Transit} {framing : StreamFraming} {queue : List (List UInt8)}
  {buf body : List UInt8} {bytes : BytesOptions} {order : OrderOptions}

theorem holds_nothing (framing : StreamFraming) : nothing.Holds framing [] := by
  cases framing <;> rfl

/-- **What a reader takes** is the first of the frames that the stream is cut into. -/
theorem read_frames (h : transit.read (some (bytes, order)) = some (body, after)) :
    (Framing.parse (frameHeader bytes order) transit.bytes).frames =
      body :: (Framing.parse (frameHeader bytes order) after.bytes).frames := by
  obtain ⟨⟨body', rest⟩, hframe, heq⟩ := Option.map_eq_some_iff.mp h
  cases heq
  rw [Framing.parse_takeFrame hframe]

theorem Holds.write (h : transit.Holds framing queue) (side : NetworkSide) (kind : StreamKind)
    (buf : List UInt8) :
    (transit.write side kind framing buf none).Holds framing (queue ++ [buf]) := by
  cases framing with
  | none => exact congrArg (· ++ [buf]) h
  | some settings =>
    obtain ⟨bytes, order⟩ := settings
    simp only [Holds] at h ⊢
    simp only [Transit.write, h, write_eq, List.map_append, List.flatten_append, List.map_singleton,
      List.flatten_singleton]

theorem Holds.read (h : transit.Holds framing queue) (hlegible : ∀ buf ∈ queue, framing.Legible buf)
    (hread : transit.read framing = some (body, after)) :
    ∃ rest, queue = body :: rest ∧ after.Holds framing rest := by
  cases framing with
  | none =>
    simp only [Transit.read] at hread
    simp only [Holds] at h
    split at hread
    · cases hread
    · rename_i message rest hmessages
      cases hread
      exact ⟨rest, h.symm.trans hmessages, rfl⟩
  | some settings =>
    obtain ⟨bytes, order⟩ := settings
    obtain ⟨⟨body', rest⟩, hframe, heq⟩ := Option.map_eq_some_iff.mp hread
    cases heq
    simp only [Holds] at h
    rw [h] at hframe
    cases queue with
    | nil =>
      rw [List.map_nil, List.flatten_nil, Framing.takeFrame_nil] at hframe
      cases hframe
    | cons buf queue =>
      obtain ⟨hlimit, hsize⟩ := hlegible buf List.mem_cons_self bytes order rfl
      have hfits : (frameHeader bytes order).size (headerOf bytes order buf.length) ≤
          (frameHeader bytes order).limit := hsize.trans_le hlimit
      rw [List.map_cons, List.flatten_cons, List.append_assoc,
        Framing.takeFrame_cons (length_headerOf _) hfits hsize] at hframe
      cases hframe
      exact ⟨queue, rfl, rfl⟩

end Transit

/-! ## Steps -/

/-- What is taken at an end. -/
def Links.takenAt (link : ClientEnd) (taken : Option (ClientEnd × StreamFraming × List UInt8)) :
    List (List UInt8) :=
  ((taken.filter (·.1 = link)).map (·.2.2)).toList

/-- Nothing is taken at the end, and what is on the way there stays, or its first message is. -/
theorem Links.take_cases {links links' : Links}
    {taken : Option (ClientEnd × StreamFraming × List UInt8)}
    (h : links.take taken = some links') (link : ClientEnd) :
    takenAt link taken = [] ∧ links' link = links link ∨ ∃ framing bytes,
      taken = some (link, framing, bytes) ∧ takenAt link taken = [bytes] ∧
        (links link).read framing = some (bytes, links' link) := by
  cases taken with
  | none =>
    cases h
    exact .inl ⟨rfl, rfl⟩
  | some taken =>
    obtain ⟨link', framing, bytes⟩ := taken
    simp only [take] at h
    split at h
    · cases h
    · rename_i bytes' transit hread
      split at h
      · rename_i hbytes
        cases h
        subst hbytes
        by_cases hlink : link' = link
        · subst hlink
          refine .inr ⟨framing, bytes', rfl, ?_, ?_⟩
          · simp [takenAt, Option.filter]
          · rw [hread, Function.update_self]
        · refine .inl ⟨?_, Function.update_of_ne (Ne.symm hlink) _ _⟩
          simp [takenAt, hlink, Option.filter]
      · cases h

namespace Written
variable {ends : Type} [DecidableEq ends] {written : Written ends} {link : ends}

theorem push_self (buf : List UInt8) : written.push link buf link = written link ++ [buf] := by
  rw [push, Function.update_self]

theorem push_ne {link' : ends} (hne : link ≠ link') (buf : List UInt8) :
    written.push link' buf link = written link := by
  rw [push, Function.update_of_ne hne]

theorem count_push (source : ends) (bytes buf : List UInt8) :
    (written.push source bytes link).count buf =
      (written link).count buf + if source = link ∧ bytes = buf then 1 else 0 := by
  by_cases hsource : source = link
  · subst hsource
    by_cases hbytes : bytes = buf
    · simp [push_self, hbytes]
    · simp [push_self, hbytes]
  · rw [push_ne (Ne.symm hsource), if_neg fun h => hsource h.1, Nat.add_zero]

end Written

variable {τ : Type} [DecidableEq τ] [UserMessages τ] [Ciborium τ]

/-- A step of a deployment, with the states on both sides. -/
abbrev DeploymentTransition (τ : Type) [DecidableEq τ] [UserMessages τ] [Ciborium τ] :=
  Machine.Transition (Deployment τ) (DeploymentInput τ) (DeploymentOutput τ)

namespace Deployment
variable {wiring : Wiring} {deployment after : Deployment τ} {t : DeploymentTransition τ}
  {ts : List (DeploymentTransition τ)}

/-- The steps by who takes them. -/
inductive Moves (wiring : Wiring) (deployment : Deployment τ) :
    DeploymentInput τ → Deployment τ → DeploymentOutput τ → Prop
  | server {input : ServerInput τ} {server : ServerApp τ} {output : ServerOutput τ} {up : Links}
      (takes : deployment.up.take (input.takes wiring) = some up)
      (step : deployment.server.step input = some (server, output)) :
      Moves wiring deployment (.server input) { deployment with server := server, up := up }
        (.server output)
  | client {i : Nat} {input : ClientInput τ} {client : ClientApp τ}
      {dispatched : List (WorldMessage τ)} {down : Links}
      (takes : deployment.down.take (input.takes wiring i) = some down)
      (step : (deployment.clients i).step input = some (client, dispatched)) :
      Moves wiring deployment (.client i input) { deployment with
        clients := Function.update deployment.clients i client
        down := down } (.client dispatched)
  | serverWrite {source : ServerEnd} {framing : StreamFraming} {buf : List UInt8}
      {failed : Option Nat} (writes : deployment.server.Writes source framing buf)
      (open' : (deployment.serverWrote source).count buf <
        (deployment.server.buffers source).count buf) :
      Moves wiring deployment (.serverWrite source framing buf failed) { deployment with
        serverWrote := deployment.serverWrote.push source buf
        down :=
          match wiring source with
          | none => deployment.down
          | some link => Function.update deployment.down link
              ((deployment.down link).write .server source.stream.kind framing buf failed) } .quiet
  | clientWrite {source : ClientEnd} {framing : StreamFraming} {buf : List UInt8}
      {failed : Option Nat} (writes : (deployment.clients source.client).Writes source framing buf)
      (open' : (deployment.clientWrote source).count buf <
        ((deployment.clients source.client).buffers source).count buf) :
      Moves wiring deployment (.clientWrite source framing buf failed) { deployment with
        clientWrote := deployment.clientWrote.push source buf
        up := Function.update deployment.up source
          ((deployment.up source).write .client source.stream.kind framing buf failed) } .quiet
  | lose {link : ClientEnd} :
      Moves wiring deployment (.lose link) { deployment with
        up := Function.update deployment.up link .nothing
        down := Function.update deployment.down link .nothing } .quiet

theorem step_moves {input : DeploymentInput τ} {output : DeploymentOutput τ}
    (h : deployment.step wiring input = some (after, output)) :
    Moves wiring deployment input after output := by
  cases input with
  | server input =>
    simp only [step] at h
    split at h
    · cases h
    · rename_i up htakes
      obtain ⟨⟨server, output⟩, hstep, heq⟩ := Option.map_eq_some_iff.mp h
      cases heq
      exact .server htakes hstep
  | client i input =>
    simp only [step] at h
    split at h
    · cases h
    · rename_i down htakes
      obtain ⟨⟨client, dispatched⟩, hstep, heq⟩ := Option.map_eq_some_iff.mp h
      cases heq
      exact .client htakes hstep
  | serverWrite source framing buf failed =>
    simp only [step] at h
    split at h
    · rename_i hopen
      cases h
      exact .serverWrite hopen.1 hopen.2
    · cases h
  | clientWrite source framing buf failed =>
    simp only [step] at h
    split at h
    · rename_i hopen
      cases h
      exact .clientWrite hopen.1 hopen.2
    · cases h
  | lose link =>
    cases h
    exact .lose

/-! ## Parts -/

/-- The step of the server in a step of the deployment. -/
def serverLabel (t : DeploymentTransition τ) : Option (ServerInput τ × ServerOutput τ) :=
  match t.input, t.output with
  | .server input, .server output => some (input, output)
  | _, _ => none

/-- The step of a client in a step of the deployment. -/
def clientLabel (i : Nat) (t : DeploymentTransition τ) :
    Option (ClientInput τ × List (WorldMessage τ)) :=
  match t.input, t.output with
  | .client j input, .client dispatched => if j = i then some (input, dispatched) else none
  | _, _ => none

/-- The steps of the server. -/
def serverPart (ts : List (DeploymentTransition τ)) : List (ServerTransition τ) :=
  ts.filterMap (Machine.Transition.part (·.server) serverLabel)

/-- The steps of a client. -/
def clientPart (i : Nat) (ts : List (DeploymentTransition τ)) : List (ClientTransition τ) :=
  ts.filterMap (Machine.Transition.part (·.clients i) (clientLabel i))

/-- A step is one of the server, or leaves it alone. -/
theorem serverLabel_spec (hof : t.Of (deploymentMachine τ wiring)) :
    serverLabel t = none ∧ t.post.server = t.pre.server ∧ (∀ input, t.input ≠ .server input) ∨
      ∃ input output, t.input = .server input ∧ serverLabel t = some (input, output) ∧
        t.pre.server.step input = some (t.post.server, output) := by
  obtain ⟨pre, input, output, post⟩ := t
  change pre.step wiring input = some (post, output) at hof
  cases step_moves hof with
  | server takes step => exact .inr ⟨_, _, rfl, rfl, step⟩
  | client | serverWrite | clientWrite | lose =>
    refine .inl ⟨rfl, rfl, fun input hinput => ?_⟩
    cases hinput

theorem server_run (h : (deploymentMachine τ wiring).Run .new ts deployment) :
    (serverMachine τ).Run .new (serverPart ts) deployment.server := by
  refine Machine.Run.project (·.server) serverLabel ?_ ?_ h
  · intro t hof hlabel
    rcases serverLabel_spec hof with ⟨-, hsame, -⟩ | ⟨input, output, -, hsome, -⟩
    · exact hsame
    · rw [hsome] at hlabel
      cases hlabel
  · intro t hof l hlabel
    rcases serverLabel_spec hof with ⟨hnone, -⟩ | ⟨input, output, -, hsome, hstep⟩
    · rw [hnone] at hlabel
      cases hlabel
    · cases hsome.symm.trans hlabel
      exact hstep

/-- A step is one of the client, or leaves it alone. -/
theorem clientLabel_spec (hof : t.Of (deploymentMachine τ wiring)) (i : Nat) :
    clientLabel i t = none ∧ t.post.clients i = t.pre.clients i ∧
        (∀ input, t.input ≠ .client i input) ∨
      ∃ input dispatched, t.input = .client i input ∧
        clientLabel i t = some (input, dispatched) ∧
          (t.pre.clients i).step input = some (t.post.clients i, dispatched) := by
  obtain ⟨pre, input, output, post⟩ := t
  change pre.step wiring input = some (post, output) at hof
  cases step_moves hof with
  | @client j input client dispatched down takes step =>
    by_cases hname : j = i
    · subst hname
      refine .inr ⟨input, dispatched, rfl, if_pos rfl, ?_⟩
      dsimp only
      rw [Function.update_self]
      exact step
    · refine .inl ⟨if_neg hname, Function.update_of_ne (Ne.symm hname) _ _, ?_⟩
      intro input hinput
      cases hinput
      exact hname rfl
  | server | serverWrite | clientWrite | lose =>
    refine .inl ⟨rfl, rfl, fun input hinput => ?_⟩
    cases hinput

theorem client_run (h : (deploymentMachine τ wiring).Run .new ts deployment) (i : Nat) :
    (clientMachine τ).Run .new (clientPart i ts) (deployment.clients i) := by
  refine Machine.Run.project (·.clients i) (clientLabel i) ?_ ?_ h
  · intro t hof hlabel
    rcases clientLabel_spec hof i with ⟨-, hsame, -⟩ | ⟨input, dispatched, -, hsome, -⟩
    · exact hsame
    · rw [hsome] at hlabel
      cases hlabel
  · intro t hof l hlabel
    rcases clientLabel_spec hof i with ⟨hnone, -⟩ | ⟨input, dispatched, -, hsome, hstep⟩
    · rw [hnone] at hlabel
      cases hlabel
    · cases hsome.symm.trans hlabel
      exact hstep

/-! ## On the way -/

/-- What the server takes that comes from an end. -/
def tookUp (wiring : Wiring) (link : ClientEnd) (t : DeploymentTransition τ) : List (List UInt8) :=
  match t.input with
  | .server input => Links.takenAt link (input.takes wiring)
  | _ => []

/-- What a client takes that comes to an end. -/
def tookDown (wiring : Wiring) (link : ClientEnd) (t : DeploymentTransition τ) :
    List (List UInt8) :=
  match t.input with
  | .client i input => Links.takenAt link (input.takes wiring i)
  | _ => []

/-- A client's end writes whole messages that its settings can state, and is read with the same
settings. -/
structure SoundUp (wiring : Wiring) (link : ClientEnd) (framing : StreamFraming)
    (t : DeploymentTransition τ) : Prop where
  writes : ∀ framing' buf failed, t.input = .clientWrite link framing' buf failed →
    framing' = framing ∧ framing.Legible buf ∧ failed = none
  reads : ∀ input framing' bytes, t.input = .server input →
    input.takes wiring = some (link, framing', bytes) → framing' = framing

/-- An end of the server writes whole messages that its settings can state, and the client reads
with the same settings. -/
structure SoundDown (wiring : Wiring) (source : ServerEnd) (link : ClientEnd)
    (framing : StreamFraming) (t : DeploymentTransition τ) : Prop where
  writes : ∀ framing' buf failed, t.input = .serverWrite source framing' buf failed →
    framing' = framing ∧ framing.Legible buf ∧ failed = none
  reads : ∀ i input framing' bytes, t.input = .client i input →
    input.takes wiring i = some (link, framing', bytes) → framing' = framing

/-- Of the messages that were written, those that were read and those on the way, in this order. -/
def Accounts (transit : Transit) (framing : StreamFraming) (read written : List (List UInt8)) :
    Prop :=
  ∃ queue, transit.Holds framing queue ∧ (∀ buf ∈ queue, framing.Legible buf) ∧
    (read ++ queue).Sublist written

section Accounts
variable {transit transit' : Transit} {framing framing' : StreamFraming}
  {taken sent : List (List UInt8)} {bytes buf : List UInt8}

theorem accounts_nil (framing : StreamFraming) : Accounts .nothing framing [] [] :=
  ⟨[], Transit.holds_nothing framing, fun _ hbuf => absurd hbuf List.not_mem_nil,
    List.Sublist.refl _⟩

theorem Accounts.read (h : Accounts transit framing taken sent)
    (hread : transit.read framing = some (bytes, transit')) :
    Accounts transit' framing (taken ++ [bytes]) sent := by
  obtain ⟨queue, hholds, hlegible, hsublist⟩ := h
  obtain ⟨rest, rfl, hrest⟩ := hholds.read hlegible hread
  refine ⟨rest, hrest, fun buf hbuf => hlegible buf (List.mem_cons_of_mem _ hbuf), ?_⟩
  rw [List.append_assoc]
  exact hsublist

theorem Accounts.write (h : Accounts transit framing taken sent) (hlegible : framing.Legible buf)
    (side : NetworkSide) (kind : StreamKind) :
    Accounts (transit.write side kind framing buf none) framing taken (sent ++ [buf]) := by
  obtain ⟨queue, hholds, hqueue, hsublist⟩ := h
  refine ⟨queue ++ [buf], hholds.write side kind buf, ?_, ?_⟩
  · exact List.forall_mem_append.mpr ⟨hqueue, List.forall_mem_singleton.mpr hlegible⟩
  · rw [← List.append_assoc]
    exact hsublist.append (List.Sublist.refl _)

theorem Accounts.lose (h : Accounts transit framing taken sent) :
    Accounts .nothing framing taken sent := by
  obtain ⟨queue, -, -, hsublist⟩ := h
  refine ⟨[], Transit.holds_nothing framing, fun _ hbuf => absurd hbuf List.not_mem_nil, ?_⟩
  rw [List.append_nil]
  exact (List.sublist_append_left _ _).trans hsublist

/-- What was read was written. -/
theorem Accounts.sublist (h : Accounts transit framing taken sent) : taken.Sublist sent := by
  obtain ⟨queue, -, -, hsublist⟩ := h
  exact (List.sublist_append_left _ _).trans hsublist

end Accounts

/-- **What the server reads from an end**, and what it has still to read, was written there in that
order. -/
theorem up_run (h : (deploymentMachine τ wiring).Run .new ts deployment) {link : ClientEnd}
    {framing : StreamFraming} (hsound : ∀ t ∈ ts, SoundUp wiring link framing t) :
    Accounts (deployment.up link) framing (ts.flatMap (tookUp wiring link))
      (deployment.clientWrote link) := by
  refine h.history (fun ts deployment => (∀ t ∈ ts, SoundUp wiring link framing t) →
    Accounts (deployment.up link) framing (ts.flatMap (tookUp wiring link))
      (deployment.clientWrote link)) (fun _ => accounts_nil framing) ?_ hsound
  intro ts t _ ih hof hsound
  obtain ⟨hbefore, hlast⟩ := List.forall_mem_append.mp hsound
  obtain ⟨hwrites, hreads⟩ := hlast t (List.mem_singleton_self t)
  have haccounts := ih hbefore
  obtain ⟨pre, input, output, post⟩ := t
  change pre.step wiring input = some (post, output) at hof
  rw [List.flatMap_append, List.flatMap_singleton]
  cases step_moves hof with
  | @server input _ _ up takes step =>
    simp only [tookUp]
    rcases Links.take_cases takes link with ⟨hnone, hsame⟩ | ⟨framing', bytes, htaken, hone, hread⟩
    · rw [hnone, hsame, List.append_nil]
      exact haccounts
    · cases hreads input framing' bytes rfl htaken
      rw [hone]
      exact haccounts.read hread
  | client | serverWrite =>
    rw [tookUp, List.append_nil]
    exact haccounts
  | @clientWrite source framing' buf failed =>
    rw [tookUp, List.append_nil]
    by_cases hlink : link = source
    · subst hlink
      obtain ⟨rfl, hlegible, rfl⟩ := hwrites framing' buf failed rfl
      dsimp only
      rw [Function.update_self, Written.push_self]
      exact haccounts.write hlegible .client link.stream.kind
    · dsimp only
      rw [Function.update_of_ne hlink, Written.push_ne hlink]
      exact haccounts
  | @lose link' =>
    rw [tookUp, List.append_nil]
    by_cases hlink : link = link'
    · subst hlink
      dsimp only
      rw [Function.update_self]
      exact haccounts.lose
    · dsimp only
      rw [Function.update_of_ne hlink]
      exact haccounts

/-- **What a client reads from an end**, and what it has still to read, was written at the other
end in that order. -/
theorem down_run (h : (deploymentMachine τ wiring).Run .new ts deployment) {source : ServerEnd}
    {link : ClientEnd} (hwired : wiring source = some link) {framing : StreamFraming}
    (hsound : ∀ t ∈ ts, SoundDown wiring source link framing t) :
    Accounts (deployment.down link) framing (ts.flatMap (tookDown wiring link))
      (deployment.serverWrote source) := by
  refine h.history (fun ts deployment => (∀ t ∈ ts, SoundDown wiring source link framing t) →
    Accounts (deployment.down link) framing (ts.flatMap (tookDown wiring link))
      (deployment.serverWrote source)) (fun _ => accounts_nil framing) ?_ hsound
  intro ts t _ ih hof hsound
  obtain ⟨hbefore, hlast⟩ := List.forall_mem_append.mp hsound
  obtain ⟨hwrites, hreads⟩ := hlast t (List.mem_singleton_self t)
  have haccounts := ih hbefore
  obtain ⟨pre, input, output, post⟩ := t
  change pre.step wiring input = some (post, output) at hof
  rw [List.flatMap_append, List.flatMap_singleton]
  cases step_moves hof with
  | @client i input _ _ down takes step =>
    simp only [tookDown]
    rcases Links.take_cases takes link with ⟨hnone, hsame⟩ | ⟨framing', bytes, htaken, hone, hread⟩
    · rw [hnone, hsame, List.append_nil]
      exact haccounts
    · cases hreads i input framing' bytes rfl htaken
      rw [hone]
      exact haccounts.read hread
  | server | clientWrite =>
    rw [tookDown, List.append_nil]
    exact haccounts
  | @serverWrite source' framing' buf failed =>
    rw [tookDown, List.append_nil]
    by_cases hsource : source = source'
    · subst hsource
      obtain ⟨rfl, hlegible, rfl⟩ := hwrites framing' buf failed rfl
      dsimp only
      rw [hwired, Written.push_self]
      dsimp only
      rw [Function.update_self]
      exact haccounts.write hlegible .server source.stream.kind
    · -- no other end of the server is wired to this one
      dsimp only
      rw [Written.push_ne hsource]
      cases hwired' : wiring source' with
      | none => exact haccounts
      | some link' =>
        have hne : link ≠ link' := by
          rintro rfl
          exact hsource (wiring.inj hwired hwired')
        dsimp only
        rw [Function.update_of_ne hne]
        exact haccounts
  | @lose link' =>
    rw [tookDown, List.append_nil]
    by_cases hlink : link = link'
    · subst hlink
      dsimp only
      rw [Function.update_self]
      exact haccounts.lose
    · dsimp only
      rw [Function.update_of_ne hlink]
      exact haccounts

/-! ## What is written was sent -/

theorem clientWrote_run (h : (deploymentMachine τ wiring).Run .new ts deployment)
    (link : ClientEnd) (buf : List UInt8) :
    (deployment.clientWrote link).count buf ≤
      ((clientPart link.client ts).flatMap fun t => t.pre.sentOn link t.input).count buf := by
  refine h.history (fun ts deployment => (deployment.clientWrote link).count buf ≤
    ((clientPart link.client ts).flatMap fun t => t.pre.sentOn link t.input).count buf)
      (Nat.zero_le _) ?_
  intro ts t hrun ih hof
  obtain ⟨pre, input, output, post⟩ := t
  change pre.step wiring input = some (post, output) at hof
  rw [clientPart, List.filterMap_append, List.flatMap_append, List.count_append]
  refine Nat.le_trans ?_ (Nat.le_add_right _ _)
  cases step_moves hof with
  | server | client | serverWrite | lose => exact ih
  | @clientWrite source framing bytes failed _ hopen =>
    dsimp only
    rw [Written.count_push]
    split
    · rename_i hsame
      obtain ⟨rfl, rfl⟩ := hsame
      exact Nat.le_trans hopen (ClientApp.buffers_run (client_run hrun _) source bytes)
    · exact ih

theorem serverWrote_run (h : (deploymentMachine τ wiring).Run .new ts deployment)
    {source : ServerEnd} {uuid : Uuid}
    (hown : ∀ uuid', EnteredIn (serverPart ts) uuid' source.stream → uuid' = uuid)
    (buf : List UInt8) :
    (deployment.serverWrote source).count buf ≤
      ((serverPart ts).flatMap fun t => ServerApp.sentTo uuid t.input t.output).count buf := by
  refine h.history (fun ts deployment =>
    (∀ uuid', EnteredIn (serverPart ts) uuid' source.stream → uuid' = uuid) →
      (deployment.serverWrote source).count buf ≤
        ((serverPart ts).flatMap fun t => ServerApp.sentTo uuid t.input t.output).count buf)
          (fun _ => Nat.zero_le _) ?_ hown
  intro ts t hrun ih hof hown
  obtain ⟨pre, input, output, post⟩ := t
  change pre.step wiring input = some (post, output) at hof
  rw [serverPart, List.filterMap_append] at hown
  have hbefore : ∀ uuid', EnteredIn (serverPart ts) uuid' source.stream → uuid' = uuid :=
    fun uuid' hentered => hown uuid' hentered.append
  rw [serverPart, List.filterMap_append, List.flatMap_append, List.count_append]
  refine Nat.le_trans ?_ (Nat.le_add_right _ _)
  cases step_moves hof with
  | server | client | clientWrite | lose => exact ih hbefore
  | @serverWrite source' framing bytes failed _ hopen =>
    dsimp only
    rw [Written.count_push]
    split
    · rename_i hsame
      obtain ⟨rfl, rfl⟩ := hsame
      exact Nat.le_trans hopen (buffers_run (server_run hrun) hbefore bytes)
    · exact ih hbefore

end Deployment

/-! ## The two directions -/

section Results
open Deployment
variable {wiring : Wiring} {deployment : Deployment τ} {ts : List (DeploymentTransition τ)}

/-- The client of a wired end is the one that its readers read for. -/
theorem forwarded_step (h : (deploymentMachine τ wiring).Run .new ts deployment) {name : String}
    {uuid : Uuid} {stream : Stream} {link : ClientEnd}
    (hentered : EnteredIn (serverPart ts) uuid stream)
    (hwired : wiring ⟨name, stream⟩ = some link) {input : ServerInput τ} {output : ServerOutput τ}
    {before after : List (DeploymentTransition τ)} {t : DeploymentTransition τ}
    (hts : ts = before ++ t :: after)
    (hstep : t.pre.server.step input = some (t.post.server, output)) :
    ((input.forwarded name).filter (·.2 = uuid)).map Prod.fst =
      Links.takenAt link (input.takes wiring) := by
  have hrun := server_run (h.of_split hts).1
  have hmore : ∀ {uuid' stream'}, EnteredIn (serverPart before) uuid' stream' →
      EnteredIn (serverPart ts) uuid' stream' := by
    intro uuid' stream' hbefore
    rw [hts, serverPart, List.filterMap_append]
    exact hbefore.append
  cases input with
  | task connectionName task event =>
    obtain ⟨-, ⟨connection, hconnection, hruns, hdoes⟩, -⟩ := ServerApp.task_spec hstep
    cases event with
    | messageReceived bytes target =>
      cases task with
      | read stream' framing target' isAuthenticated =>
        cases hdoes
        have hreads := hmore (reads_run hrun hconnection hruns)
        have hserver := server_run h
        simp only [ServerInput.forwarded, ServerInput.takes]
        by_cases hsame : connectionName = name ∧ stream' = stream
        · obtain ⟨rfl, rfl⟩ := hsame
          have huuid := (distinct_run hserver).unique hreads hentered
          simp [hwired, huuid, Links.takenAt, Option.filter]
        · -- another stream is another client's, and wired to another end
          have hforwarded : ¬(connectionName = name ∧ target = uuid) := by
            rintro ⟨hname, rfl⟩
            exact hsame ⟨hname, entered_once hserver hreads hentered⟩
          have htakes : ∀ link', wiring ⟨connectionName, stream'⟩ = some link' → link' ≠ link := by
            rintro link' hwired' rfl
            cases wiring.inj hwired hwired'
            exact hsame ⟨rfl, rfl⟩
          have hnone : Links.takenAt link
              ((wiring ⟨connectionName, stream'⟩).map (·, framing, bytes)) = [] := by
            cases hwired' : wiring ⟨connectionName, stream'⟩ with
            | none => rfl
            | some link' => simp [Links.takenAt, Option.filter, htakes link' hwired']
          rw [hnone]
          by_cases hname : connectionName = name
          · have htarget : target ≠ uuid := fun htarget => hforwarded ⟨hname, htarget⟩
            simp [hname, htarget]
          · simp [hname]
      | bind | accept | write => cases hdoes
    | _ => cases task <;> rfl
  | _ => rfl

/-- What the readers of a client's stream forward is what they take from the other end. -/
theorem forwarded_run (h : (deploymentMachine τ wiring).Run .new ts deployment) {name : String}
    {uuid : Uuid} {stream : Stream} {link : ClientEnd}
    (hentered : EnteredIn (serverPart ts) uuid stream)
    (hwired : wiring ⟨name, stream⟩ = some link) :
    (((serverPart ts).flatMap fun t => t.input.forwarded name).filter (·.2 = uuid)).map Prod.fst =
      ts.flatMap (tookUp wiring link) := by
  rw [List.filter_flatMap, List.map_flatMap]
  refine Machine.flatMap_part ?_ ?_
  · intro t ht hlabel
    rcases serverLabel_spec (h.forall_of t ht) with ⟨-, -, hother⟩ | ⟨input, output, -, hsome, -⟩
    · rw [tookUp]
      split
      · rename_i input hinput
        exact absurd hinput (hother input)
      · rfl
    · rw [hsome] at hlabel
      cases hlabel
  · intro t ht l hlabel
    obtain ⟨before, after, hts⟩ := List.append_of_mem ht
    rcases serverLabel_spec (h.forall_of t ht) with
      ⟨hnone, -⟩ | ⟨input, output, hinput, hsome, hstep⟩
    · rw [hnone] at hlabel
      cases hlabel
    · cases hsome.symm.trans hlabel
      rw [tookUp, hinput]
      exact (forwarded_step h hentered hwired hts hstep).symm

/-- **What the server dispatches for a client was sent by that client.** The messages it dispatches
are what it makes of some of those that the tasks of the client's end of the stream wrote, in the
order in which they did and each once; and these are among those that the program there handed to
`send_message` on that stream. -/
theorem dispatched_sent (wiring : Wiring) (ts : List (DeploymentTransition τ))
    (deployment : Deployment τ) (h : (deploymentMachine τ wiring).Run .new ts deployment)
    (name : String) (uuid : Uuid) (stream : Stream) (link : ClientEnd) (framing : StreamFraming)
    (hentered : EnteredIn (serverPart ts) uuid stream)
    (hwired : wiring ⟨name, stream⟩ = some link)
    (hsound : ∀ t ∈ ts, SoundUp wiring link framing t) :
    ∃ read : List (List UInt8),
      List.Forall₂ (fun bytes message => ∃ t ∈ serverPart ts,
        Incoming.written t.pre.registry name (bytes, uuid) = some message) read
          (dispatchedFor name uuid ((serverPart ts).flatMap (·.output.dispatched))) ∧
      read.Sublist (deployment.clientWrote link) ∧
      (deployment.clientWrote link).Subperm
        ((clientPart link.client ts).flatMap fun t => t.pre.sentOn link t.input) := by
  have hserver := server_run h
  have hone : ∀ t ∈ serverPart ts, ∃ read,
      read.Sublist (((t.pre.taken name t.input).filter (·.2 = uuid)).map Prod.fst) ∧
        List.Forall₂ (fun bytes message => ∃ t ∈ serverPart ts,
          Incoming.written t.pre.registry name (bytes, uuid) = some message) read
            (t.pre.passed name uuid t.input) := by
    intro t ht
    obtain ⟨ys, hsublist, himages⟩ := Fifo.exists_images
      (Incoming.written t.pre.registry name) (((t.pre.taken name t.input).filter
        (·.2 = uuid)).filter fun message => t.pre.authenticated name uuid ||
          Incoming.authenticates t.pre.registry message)
    refine ⟨ys.map Prod.fst, (hsublist.trans List.filter_sublist).map _, ?_⟩
    refine List.forall₂_map_left_iff.mpr (himages.imp ?_)
    intro message written hwritten
    have hsender : message.2 = uuid :=
      of_decide_eq_true (List.mem_filter.mp (List.mem_filter.mp hwritten.1).1).2
    exact ⟨t, ht, hsender ▸ hwritten.2⟩
  obtain ⟨read, hsublist, himages⟩ := Fifo.exists_images_flatMap hone
  have hforwarded : ((serverPart ts).flatMap fun t => t.pre.taken name t.input).Sublist
      ((serverPart ts).flatMap fun t => t.input.forwarded name) :=
    (List.sublist_append_left _ _).trans (ServerApp.taken_run .nil hserver name)
  refine ⟨read, ?_, ?_, ?_⟩
  · rw [ServerApp.passed_run .nil hserver name uuid]
    exact himages
  · have htook : read.Sublist (ts.flatMap (tookUp wiring link)) := by
      rw [← forwarded_run h hentered hwired]
      rw [← List.map_flatMap, ← List.filter_flatMap] at hsublist
      exact hsublist.trans ((hforwarded.filter _).map _)
    exact htook.trans (up_run h hsound).sublist
  · exact List.subperm_ext_iff.mpr fun buf _ => clientWrote_run h link buf

/-- The message that a reader of a client's connection forwards, with the stream it reads. -/
def ClientInput.readOn {τ : Type} [UserMessages τ] (name : String) :
    ClientInput τ → List (Stream × List UInt8)
  | .task connectionName (.read stream _) (.messageReceived bytes) =>
    if connectionName = name then [(stream, bytes)] else []
  | _ => []

theorem ClientInput.takenAt_takes {τ : Type} [UserMessages τ] {wiring : Wiring} {link : ClientEnd}
    (hlink : (wiring.symm link).isSome) (i : Nat) (input : ClientInput τ) :
    Links.takenAt link (input.takes wiring i) =
      if i = link.client then
        ((input.readOn link.connectionName).filter (·.1 = link.stream)).map Prod.snd
      else [] := by
  have hnone : (if i = link.client then ([] : List (List UInt8)) else []) = [] := ite_self _
  cases input with
  | task connectionName task event =>
    cases task with
    | read stream framing =>
      cases event with
      | messageReceived bytes =>
        obtain ⟨client, name, stream'⟩ := link
        simp only [takes, readOn]
        by_cases hsame : i = client ∧ connectionName = name ∧ stream = stream'
        · obtain ⟨rfl, rfl, rfl⟩ := hsame
          simp [hlink, Links.takenAt, Option.filter]
        · have htakes : Links.takenAt (⟨client, name, stream'⟩ : ClientEnd)
              (if (wiring.symm ⟨i, connectionName, stream⟩).isSome then
                some (⟨i, connectionName, stream⟩, framing, bytes) else none) = [] := by
            split
            · simp [Links.takenAt, Option.filter, hsame]
            · rfl
          rw [htakes]
          split
          · rename_i hclient
            split
            · rename_i hname
              have hstream : stream ≠ stream' := fun hstream => hsame ⟨hclient, hname, hstream⟩
              simp [hstream]
            · rfl
          · rfl
      | _ => exact hnone.symm
    | _ => exact hnone.symm
  | _ => exact hnone.symm

/-- Only readers forward messages. -/
theorem ClientApp.forwarded_eq {app app' : ClientApp τ} {input : ClientInput τ}
    {output : List (WorldMessage τ)} (h : app.step input = some (app', output)) (name : String) :
    input.forwarded name = (input.readOn name).map Prod.snd := by
  cases input with
  | task connectionName task event =>
    obtain ⟨app'', htask, -⟩ := Option.map_eq_some_iff.mp h
    obtain ⟨-, -, connection, port, -, -, -, hdoes⟩ := task_spec htask
    cases event with
    | messageReceived bytes =>
      cases task with
      | read stream framing =>
        simp only [ClientInput.forwarded, ClientInput.readOn]
        split <;> rfl
      | connect | write | sendQueue => cases hdoes
    | _ => cases task <;> rfl
  | _ => rfl

/-- What a client's readers of a wired stream forward is what they take from the other end. -/
theorem read_run (h : (deploymentMachine τ wiring).Run .new ts deployment) {source : ServerEnd}
    {link : ClientEnd} (hwired : wiring source = some link) :
    (((clientPart link.client ts).flatMap fun t => t.input.readOn link.connectionName).filter
        (·.1 = link.stream)).map Prod.snd = ts.flatMap (tookDown wiring link) := by
  have hlink : (wiring.symm link).isSome := by
    rw [wiring.eq_some_iff.mpr hwired]
    rfl
  rw [List.filter_flatMap, List.map_flatMap]
  refine Machine.flatMap_part ?_ ?_
  · intro t ht hlabel
    rcases clientLabel_spec (h.forall_of t ht) link.client with
      ⟨-, -, hother⟩ | ⟨input, dispatched, -, hsome, -⟩
    · rw [tookDown]
      split
      · rename_i i input hinput
        rw [ClientInput.takenAt_takes hlink, if_neg]
        rintro rfl
        exact hother input hinput
      · rfl
    · rw [hsome] at hlabel
      cases hlabel
  · intro t ht l hlabel
    rcases clientLabel_spec (h.forall_of t ht) link.client with
      ⟨hnone, -⟩ | ⟨input, dispatched, hinput, hsome, -⟩
    · rw [hnone] at hlabel
      cases hlabel
    · cases hsome.symm.trans hlabel
      rw [tookDown, hinput]
      dsimp only
      rw [ClientInput.takenAt_takes hlink, if_pos rfl]

/-- **What a client dispatches was sent to it.** The messages it dispatches on a connection are what
it makes of some of those that it read there; and those that it read on one stream are some of
those that the tasks of the other end wrote, in the order in which they did and each once, and
these are among those that the server sent to the client for which it had entered that stream. -/
theorem read_sent (wiring : Wiring) (ts : List (DeploymentTransition τ))
    (deployment : Deployment τ) (h : (deploymentMachine τ wiring).Run .new ts deployment)
    (i : Nat) (name : String) :
    ∃ read : List (Stream × List UInt8),
      List.Forall₂ (fun bytes message => ∃ t ∈ clientPart i ts,
        ClientConnection.received t.pre.registry name bytes.2 = some message) read
          (((clientPart i ts).flatMap (·.output)).filter (·.server? = some name)) ∧
      ∀ (source : ServerEnd) (stream : Stream) (uuid : Uuid) (framing : StreamFraming),
        wiring source = some ⟨i, name, stream⟩ →
        EnteredIn (serverPart ts) uuid source.stream →
        (∀ t ∈ ts, SoundDown wiring source ⟨i, name, stream⟩ framing t) →
          ((read.filter (·.1 = stream)).map Prod.snd).Sublist (deployment.serverWrote source) ∧
          (deployment.serverWrote source).Subperm
            ((serverPart ts).flatMap fun t => ServerApp.sentTo uuid t.input t.output) := by
  have hclient := client_run h i
  have hone : ∀ t ∈ clientPart i ts, ∃ read, read.Sublist (t.pre.taken name t.input) ∧
      List.Forall₂ (fun bytes message => ∃ t ∈ clientPart i ts,
        ClientConnection.received t.pre.registry name bytes = some message) read
          ((t.pre.taken name t.input).filterMap
            (ClientConnection.received t.pre.registry name)) := by
    intro t ht
    obtain ⟨read, hsublist, himages⟩ := Fifo.exists_images
      (ClientConnection.received t.pre.registry name) (t.pre.taken name t.input)
    exact ⟨read, hsublist, himages.imp fun _ _ himage => ⟨t, ht, himage.2⟩⟩
  obtain ⟨read, hsublist, himages⟩ := Fifo.exists_images_flatMap hone
  have hforwarded : ((clientPart i ts).flatMap fun t => t.pre.taken name t.input).Sublist
      (((clientPart i ts).flatMap fun t => t.input.readOn name).map Prod.snd) := by
    have htaken := ClientApp.taken_run hclient name
    rw [List.map_flatMap, ← List.flatMap_congr fun t ht =>
      ClientApp.forwarded_eq (hclient.forall_of t ht) name]
    exact (List.sublist_append_left _ _).trans htaken
  obtain ⟨tagged, htagged, rfl⟩ := List.sublist_map_iff.mp (hsublist.trans hforwarded)
  refine ⟨tagged, ?_, fun source stream uuid framing hwired hentered hsound => ⟨?_, ?_⟩⟩
  · rw [ClientApp.received_run .nil hclient name]
    exact List.forall₂_map_left_iff.mp himages
  · have hread := (htagged.filter (·.1 = stream)).map Prod.snd
    have hwhole := read_run h hwired
    rw [hwhole] at hread
    exact hread.trans (down_run h hwired hsound).sublist
  · refine List.subperm_ext_iff.mpr fun buf _ => serverWrote_run h ?_ buf
    intro uuid' hentered'
    exact (distinct_run (server_run h)).unique hentered' hentered

end Results

/-! ## A program that sends envelopes

`send_message` encodes no envelope, and the read systems decode one. A program whose own message
type is an envelope has its messages dispatched all the same. -/

/-- The message types of that program. -/
inductive Parcel
  | ticket
  | parcel
  deriving DecidableEq

namespace Parcel

instance : UserMessages Parcel where
  Message
    | .ticket => UInt8
    | .parcel => MessageInfos
  asAuthentication {t} _ := t = .ticket

instance : Ciborium Parcel where
  intoWriter {t} message :=
    match t, message with
    | .authenticationMessage, _ => .error "text"
    | .authenticatedUuid, message => .ok (0x50 :: Endian.bigBytes 16 message.uuid.toNat)
    | .user .ticket, n => .ok (Sample.encodeByte n)
    | .user .parcel, messageInfos => .ok (Sample.encodeMessageInfos messageInfos)
  fromReader
    | .authenticationMessage, _ => .error "invalid type"
    | .authenticatedUuid, bytes =>
      match bytes with
      | 0x50 :: rest =>
        if rest.length < 16 then .error "unexpected end"
        else .ok ⟨.ofNat 128 (Endian.ofBig (rest.take 16))⟩
      | _ => .error "invalid type"
    | .user .ticket, bytes =>
      match Sample.decodeBytes 1 bytes with
      | .ok [n] => .ok n
      | _ => .error "invalid type"
    | .user .parcel, bytes => Sample.decodeMessageInfos bytes
  fromReaderMessageInfos := Sample.decodeMessageInfos

def serverEnd : ServerEnd := ⟨"main", ⟨0, .stream⟩⟩

def clientEnd : ClientEnd := ⟨0, "main", ⟨0, .stream⟩⟩

def wiring : Wiring := PEquiv.single serverEnd clientEnd

/-- A parcel that holds a ticket. -/
def ticketParcel (n : UInt8) : MessageInfos := ⟨3, [n]⟩

/-- A client sends a ticket, the handler accepts it, and the server sends one back. -/
def parcelInputs : List (DeploymentInput Parcel) :=
  [.server (.registerMessage .authenticationMessage), .server (.registerMessage .authenticatedUuid),
    .server (.registerMessage (.user .ticket)),
    .server (.startConnection "main" (.server (.tcp .default))),
    .server (.first .startConnections), .server (.task "main" .bind (.portConnected 0)),
    .server (.first .receiveMainPortListener),
    .server (.first .startAcceptingConnectionsMainPort),
    .client 0 (.registerMessage .authenticationMessage),
    .client 0 (.registerMessage .authenticatedUuid),
    .client 0 (.registerMessage (.user .ticket)),
    .client 0 (.startConnection "main" (.client (.tcp .default))),
    .client 0 (.first .checkMainPortDropped), .client 0 (.first .startConnections),
    .client 0 (.task "main" (.connect true false) (.connectedToServer ⟨0, .stream⟩)),
    .client 0 (.first .checkConnectedToMainPort), .client 0 (.first .checkListeningToMainPort),
    .client 0 (.sendMessage "main" (.user .parcel) (ticketParcel 5)),
    .server (.task "main" (.accept 0 0 false false) (.clientConnected ⟨0, .stream⟩)),
    .server (.portOp "main" (.checkClientsConnected 7)),
    .server (.first .startListeningNotAuthenticated),
    .clientWrite clientEnd (some (.u32, .littleEndian))
      (Sample.encodeMessageInfos (ticketParcel 5)) none,
    .server (.task "main" (.read ⟨0, .stream⟩ (some (.u32, .littleEndian)) 7 false)
      (.messageReceived (Sample.encodeMessageInfos (ticketParcel 5)) 7)),
    .server .readMessagesServer,
    .server (.authenticationMessageServer (.user .ticket) ⟨fun _ _ _ => (true, "Success")⟩),
    .server (.sendMessage "main" (.user .parcel) (ticketParcel 6) 7),
    .serverWrite serverEnd (some (.u32, .littleEndian))
      (Sample.encodeMessageInfos (ticketParcel 6)) none,
    .client 0 (.task "main" (.read ⟨0, .stream⟩ (some (.u32, .littleEndian)))
      (.messageReceived (Sample.encodeMessageInfos (ticketParcel 6)))),
    .client 0 .readMessagesClient]

def parcelRun : List (DeploymentTransition Parcel) × Deployment Parcel :=
  ((deploymentMachine Parcel wiring).exec .new parcelInputs).getD ([], .new)

theorem run_parcelRun : (deploymentMachine Parcel wiring).Run .new parcelRun.1 parcelRun.2 := by
  have hexec : (deploymentMachine Parcel wiring).exec .new parcelInputs = some parcelRun := rfl
  exact .of_exec hexec

theorem entered_parcelRun :
    EnteredIn (Deployment.serverPart parcelRun.1) 7 ⟨0, .stream⟩ := by
  refine ⟨(Deployment.serverPart parcelRun.1).get ⟨9, by decide⟩, List.get_mem _ _, ?_⟩
  exact List.mem_cons_self

/-- The settings of both ends. -/
def framing : StreamFraming := some (.u32, .littleEndian)

theorem legible : framing.Legible (Sample.encodeMessageInfos (ticketParcel 5)) ∧
    framing.Legible (Sample.encodeMessageInfos (ticketParcel 6)) := by
  constructor <;>
  · rintro bytes order ⟨⟩
    rw [size_headerOf]
    exact ⟨by decide, by decide⟩

/-- The inputs of the steps are those above. -/
theorem input_mem {t : DeploymentTransition Parcel} (ht : t ∈ parcelRun.1) :
    t.input ∈ parcelInputs := by
  have hinputs : parcelRun.1.map (·.input) = parcelInputs := rfl
  exact hinputs ▸ List.mem_map_of_mem ht

theorem soundUp_parcelRun :
    ∀ t ∈ parcelRun.1, Deployment.SoundUp wiring clientEnd framing t := by
  intro t ht
  have hinput := input_mem ht
  constructor
  · intro framing' buf failed hwrite
    simp only [hwrite, parcelInputs, List.mem_cons, reduceCtorEq, false_or, or_false,
      List.not_mem_nil, DeploymentInput.clientWrite.injEq, true_and] at hinput
    obtain ⟨rfl, rfl, rfl⟩ := hinput
    exact ⟨rfl, legible.1, rfl⟩
  · intro input framing' bytes hserver htakes
    simp only [hserver, parcelInputs, List.mem_cons, reduceCtorEq, false_or, or_false,
      List.not_mem_nil, DeploymentInput.server.injEq] at hinput
    rcases hinput with rfl | rfl | rfl | rfl | rfl | rfl | rfl | rfl | rfl | rfl | rfl | rfl | rfl |
      rfl | rfl <;> cases htakes
    rfl

theorem soundDown_parcelRun :
    ∀ t ∈ parcelRun.1, Deployment.SoundDown wiring serverEnd clientEnd framing t := by
  intro t ht
  have hinput := input_mem ht
  constructor
  · intro framing' buf failed hwrite
    simp only [hwrite, parcelInputs, List.mem_cons, reduceCtorEq, false_or, or_false,
      List.not_mem_nil, DeploymentInput.serverWrite.injEq, true_and] at hinput
    obtain ⟨rfl, rfl, rfl⟩ := hinput
    exact ⟨rfl, legible.2, rfl⟩
  · intro i input framing' bytes hclient htakes
    simp only [hclient, parcelInputs, List.mem_cons, reduceCtorEq, false_or, or_false,
      List.not_mem_nil, DeploymentInput.client.injEq] at hinput
    rcases hinput with ⟨rfl, rfl⟩ | ⟨rfl, rfl⟩ | ⟨rfl, rfl⟩ | ⟨rfl, rfl⟩ | ⟨rfl, rfl⟩ | ⟨rfl, rfl⟩ |
      ⟨rfl, rfl⟩ | ⟨rfl, rfl⟩ | ⟨rfl, rfl⟩ | ⟨rfl, rfl⟩ | ⟨rfl, rfl⟩ | ⟨rfl, rfl⟩ <;> cases htakes
    rfl

end Parcel

/-- The one message that the server dispatches for the client is the parcel it sent. -/
theorem dispatched_sent_parcel :
    ∃ read : List (List UInt8), read.length = 1 ∧
      read.Sublist [Sample.encodeMessageInfos (Parcel.ticketParcel 5)] := by
  obtain ⟨read, himages, hsublist, -⟩ := dispatched_sent Parcel.wiring _ _ Parcel.run_parcelRun
    "main" 7 ⟨0, .stream⟩ Parcel.clientEnd Parcel.framing Parcel.entered_parcelRun rfl
    Parcel.soundUp_parcelRun
  exact ⟨read, himages.length_eq, hsublist⟩

/-- The one message that the client dispatches is the parcel that the server sent it. -/
theorem read_sent_parcel :
    ∃ read : List (Stream × List UInt8), read.length = 1 ∧
      ((read.filter (·.1 = ⟨0, .stream⟩)).map Prod.snd).Sublist
        [Sample.encodeMessageInfos (Parcel.ticketParcel 6)] := by
  obtain ⟨read, himages, hread⟩ := read_sent Parcel.wiring _ _ Parcel.run_parcelRun 0 "main"
  exact ⟨read, himages.length_eq,
    (hread Parcel.serverEnd ⟨0, .stream⟩ 7 Parcel.framing rfl Parcel.entered_parcelRun
      Parcel.soundDown_parcelRun).1⟩

end Inator
