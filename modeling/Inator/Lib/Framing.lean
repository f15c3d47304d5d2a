import Mathlib.Data.List.Basic

/-! # Streams of length-prefixed frames

A frame is a header of fixed width that states a size, followed by that many items. `parse` cuts
a finite stream into its complete frames; `feed` does the same one item at a time, as a reader
that may be suspended between any two items. `feedAll_parse` identifies the two, and
`parse_frames` is the round trip. `Frames` is the grammar of the streams in question, and
`parse_of_frames` says that the parser decides it: what it cuts is the one division of the stream
into frames and the beginning of a frame. -/

namespace Framing
variable {β : Type*}

/-- A header format. A reader gives up on a stated size above `limit`. -/
structure Header (β : Type*) where
  width : Nat
  width_pos : 0 < width
  size : List β → Nat
  limit : Nat

/-- How a stream ends: with the items `rest` of an incomplete frame, or at a refused size. -/
inductive Ending (β : Type*)
  | cut (rest : List β)
  | refused
  deriving DecidableEq

structure Parsed (β : Type*) where
  frames : List (List β)
  ending : Ending β
  deriving DecidableEq

variable (H : Header β)

/-- Cut a stream into frames. -/
def parse (s : List β) : Parsed β :=
  if s.length < H.width then ⟨[], .cut s⟩
  else if H.limit < H.size (s.take H.width) then ⟨[], .refused⟩
  else if (s.drop H.width).length < H.size (s.take H.width) then ⟨[], .cut s⟩
  else
    let tail := parse ((s.drop H.width).drop (H.size (s.take H.width)))
    ⟨(s.drop H.width).take (H.size (s.take H.width)) :: tail.frames, tail.ending⟩
termination_by s.length
decreasing_by
  have := H.width_pos
  simp only [List.length_drop]
  omega

/-- The first frame of a stream, and what follows it. -/
def takeFrame (s : List β) : Option (List β × List β) :=
  if s.length < H.width then none
  else if H.limit < H.size (s.take H.width) then none
  else if (s.drop H.width).length < H.size (s.take H.width) then none
  else some ((s.drop H.width).take (H.size (s.take H.width)),
    (s.drop H.width).drop (H.size (s.take H.width)))

/-- The state of a suspended reader: the items of the header, or of the body, it has so far. -/
inductive State (β : Type*)
  | header (got : List β)
  | body (size : Nat) (got : List β)
  | refused
  deriving DecidableEq

def State.start : State β := .header []

/-- The header is complete and states `n`. -/
def settle (n : Nat) : State β × Option (List β) :=
  if H.limit < n then (.refused, none)
  else if n = 0 then (.start, some [])
  else (.body n [], none)

/-- One item arrives. -/
def feed : State β → β → State β × Option (List β)
  | .header got, b =>
    if (got ++ [b]).length < H.width then (.header (got ++ [b]), none)
    else settle H (H.size (got ++ [b]))
  | .body n got, b =>
    if (got ++ [b]).length < n then (.body n (got ++ [b]), none) else (.start, some (got ++ [b]))
  | .refused, _ => (.refused, none)

def feedAll : State β → List β → State β × List (List β)
  | st, [] => (st, [])
  | st, b :: s =>
    ((feedAll (feed H st b).1 s).1, (feed H st b).2.toList ++ (feedAll (feed H st b).1 s).2)

/-- The state a reader is in when the stream so far ends so. -/
def Ending.state : Ending β → State β
  | .cut rest =>
    if rest.length < H.width then .header rest
    else .body (H.size (rest.take H.width)) (rest.drop H.width)
  | .refused => .refused

variable {H}

/-! ## Whole frames -/

theorem parse_short {s : List β} (h : s.length < H.width) : parse H s = ⟨[], .cut s⟩ := by
  rw [parse, if_pos h]

theorem parse_refused {head s : List β} (hw : head.length = H.width)
    (hl : H.limit < H.size head) : parse H (head ++ s) = ⟨[], .refused⟩ := by
  rw [parse, if_neg (by simp [hw]), List.take_left' hw, if_pos hl]

theorem parse_cut {head s : List β} (hw : head.length = H.width) (hl : H.size head ≤ H.limit)
    (hs : s.length < H.size head) : parse H (head ++ s) = ⟨[], .cut (head ++ s)⟩ := by
  rw [parse, if_neg (by simp [hw]), List.take_left' hw, List.drop_left' hw,
    if_neg (Nat.not_lt.mpr hl), if_pos hs]

theorem parse_cons {head body s : List β} (hw : head.length = H.width)
    (hl : H.size head ≤ H.limit) (hs : H.size head = body.length) :
    parse H (head ++ (body ++ s)) = ⟨body :: (parse H s).frames, (parse H s).ending⟩ := by
  rw [parse, if_neg (by simp [hw]), List.take_left' hw, List.drop_left' hw,
    if_neg (Nat.not_lt.mpr hl), if_neg (by simp [hs])]
  simp [hs]

/-- **Round trip.** Frames whose headers state the size of their bodies are cut where they were
joined. -/
theorem parse_frames {encode : List β → List β} {bodies : List (List β)} (s : List β)
    (hw : ∀ b ∈ bodies, (encode b).length = H.width)
    (hl : ∀ b ∈ bodies, H.size (encode b) ≤ H.limit)
    (hs : ∀ b ∈ bodies, H.size (encode b) = b.length) :
    parse H ((bodies.map fun b => encode b ++ b).flatten ++ s) =
      ⟨bodies ++ (parse H s).frames, (parse H s).ending⟩ := by
  induction bodies with
  | nil => simp
  | cons b bodies ih =>
    simp only [List.forall_mem_cons] at hw hl hs
    rw [List.map_cons, List.flatten_cons, List.append_assoc, List.append_assoc,
      parse_cons hw.1 hl.1 hs.1, ih hw.2 hl.2 hs.2, List.cons_append]

/-- The first frame is the first one that is cut, and the others are cut from what follows. -/
theorem parse_takeFrame {s body rest : List β} (h : takeFrame H s = some (body, rest)) :
    parse H s = ⟨body :: (parse H rest).frames, (parse H rest).ending⟩ := by
  unfold takeFrame at h
  split at h
  · cases h
  · rename_i hwidth
    split at h
    · cases h
    · rename_i hlimit
      split at h
      · cases h
      · rename_i hsize
        cases h
        rw [parse, if_neg hwidth, if_neg hlimit, if_neg hsize]

theorem takeFrame_nil : takeFrame H [] = none :=
  if_pos H.width_pos

theorem takeFrame_cons {head body s : List β} (hw : head.length = H.width)
    (hl : H.size head ≤ H.limit) (hs : H.size head = body.length) :
    takeFrame H (head ++ (body ++ s)) = some (body, s) := by
  rw [takeFrame, if_neg (by simp [hw]), List.take_left' hw, List.drop_left' hw,
    if_neg (Nat.not_lt.mpr hl), if_neg (by simp [hs]), hs, List.take_left' rfl,
    List.drop_left' rfl]

/-- The first frame cut after a header has the size the header states. -/
theorem length_of_parse {head s : List β} (hw : head.length = H.width)
    (h : (parse H (head ++ s)).frames = body :: rest) : body.length = H.size head := by
  rw [parse, if_neg (by simp [hw]), List.take_left' hw, List.drop_left' hw] at h
  split at h
  · cases h
  · split at h
    · cases h
    · rename_i hs
      cases h
      rw [List.length_take]
      exact Nat.min_eq_left (Nat.le_of_not_lt hs)

/-! ## One item at a time -/

/-- A reader that has completed a frame is at the start of the next. -/
theorem feed_some {st st' : State β} {b : β} {body : List β}
    (h : feed H st b = (st', some body)) : st' = .start := by
  cases st with
  | header got =>
    simp only [feed, settle] at h
    split at h
    · cases h
    · split at h
      · cases h
      · split at h
        · cases h
          rfl
        · cases h
  | body n got =>
    simp only [feed] at h
    split at h
    · cases h
    · cases h
      rfl
  | refused => cases h

theorem feedAll_append (st : State β) (s t : List β) :
    feedAll H st (s ++ t) = ((feedAll H (feedAll H st s).1 t).1,
      (feedAll H st s).2 ++ (feedAll H (feedAll H st s).1 t).2) := by
  induction s generalizing st with
  | nil => simp [feedAll]
  | cons b s ih => simp [feedAll, ih]

theorem feedAll_snoc (st : State β) (s : List β) (b : β) :
    feedAll H st (s ++ [b]) = ((feed H (feedAll H st s).1 b).1,
      (feedAll H st s).2 ++ (feed H (feedAll H st s).1 b).2.toList) := by
  simp [feedAll_append, feedAll]

theorem feedAll_header {got s : List β} (h : (got ++ s).length < H.width) :
    feedAll H (.header got) s = (.header (got ++ s), []) := by
  induction s generalizing got with
  | nil => simp [feedAll]
  | cons b s ih =>
    simp only [List.length_append, List.length_cons] at h
    simp only [feedAll, feed]
    rw [if_pos (by simp; omega), ih (by simp; omega)]
    simp

theorem feedAll_head {got s : List β} (hs : s ≠ []) (h : (got ++ s).length = H.width) :
    feedAll H (.header got) s = ((settle H (H.size (got ++ s))).1,
      (settle H (H.size (got ++ s))).2.toList) := by
  obtain ⟨s, b, rfl⟩ := (List.eq_nil_or_concat' s).resolve_left hs
  simp only [List.length_append, List.length_singleton] at h
  rw [feedAll_snoc, feedAll_header (by simp; omega)]
  simp only [feed, List.nil_append, List.append_assoc]
  rw [if_neg (by simp; omega)]

theorem feedAll_body {n : Nat} {got s : List β} (h : (got ++ s).length < n) :
    feedAll H (.body n got) s = (.body n (got ++ s), []) := by
  induction s generalizing got with
  | nil => simp [feedAll]
  | cons b s ih =>
    simp only [List.length_append, List.length_cons] at h
    simp only [feedAll, feed]
    rw [if_pos (by simp; omega), ih (by simp; omega)]
    simp

theorem feedAll_tail {n : Nat} {got s : List β} (hs : s ≠ []) (h : (got ++ s).length = n) :
    feedAll H (.body n got) s = (.start, [got ++ s]) := by
  obtain ⟨s, b, rfl⟩ := (List.eq_nil_or_concat' s).resolve_left hs
  simp only [List.length_append, List.length_singleton] at h
  rw [feedAll_snoc, feedAll_body (by simp; omega)]
  simp only [feed, List.nil_append, List.append_assoc]
  rw [if_neg (by simp; omega)]
  rfl

theorem feedAll_refused (s : List β) : feedAll H .refused s = (.refused, []) := by
  induction s with
  | nil => rfl
  | cons b s ih => simp [feedAll, feed, ih]

theorem ne_nil_of_width {head : List β} (hw : head.length = H.width) : head ≠ [] := by
  have := H.width_pos
  rintro rfl
  simp at hw
  omega

/-- A complete frame, from the start of a frame. -/
theorem feedAll_frame {head body : List β} (hw : head.length = H.width)
    (hl : H.size head ≤ H.limit) (hs : H.size head = body.length) :
    feedAll H .start (head ++ body) = (.start, [body]) := by
  have hne := ne_nil_of_width hw
  rw [feedAll_append, State.start, feedAll_head hne (by simpa using hw)]
  simp only [List.nil_append, settle, if_neg (Nat.not_lt.mpr hl)]
  by_cases h0 : H.size head = 0
  · have hnil : body = [] := List.length_eq_zero_iff.mp (hs ▸ h0)
    simp [h0, hnil, feedAll, State.start]
  · have hbody : body ≠ [] := fun h => h0 (by simp [hs, h])
    simp only [if_neg h0]
    rw [feedAll_tail hbody (by simpa using hs.symm)]
    rfl

/-- **A suspended reader cuts the same frames** as the parser, and is in the state the rest of
the stream determines. -/
theorem feedAll_parse (s : List β) :
    feedAll H .start s = ((parse H s).ending.state H, (parse H s).frames) := by
  induction s using parse.induct H with
  | case1 s h =>
    rw [parse_short h, State.start, feedAll_header (by simpa using h)]
    simp [Ending.state, h]
  | case2 s h hl =>
    have hw : (s.take H.width).length = H.width := by simp; omega
    have hne := ne_nil_of_width hw
    rw [← List.take_append_drop H.width s, parse_refused hw hl, feedAll_append, State.start,
      feedAll_head hne (by simpa using hw)]
    simp only [List.nil_append, settle, if_pos hl, feedAll_refused]
    rfl
  | case3 s h hl hs =>
    have hw : (s.take H.width).length = H.width := by simp; omega
    have hne := ne_nil_of_width hw
    have hpos : H.size (s.take H.width) ≠ 0 := by omega
    rw [← List.take_append_drop H.width s, parse_cut hw (Nat.le_of_not_lt hl) hs, feedAll_append,
      State.start, feedAll_head hne (by simpa using hw)]
    simp only [List.nil_append, settle, if_neg hl, if_neg hpos]
    rw [feedAll_body (by simpa using hs)]
    simp [Ending.state, h]
  | case4 s h hl hs ih =>
    have hw : (s.take H.width).length = H.width := by simp; omega
    have hlen : H.size (s.take H.width) =
        ((s.drop H.width).take (H.size (s.take H.width))).length := by
      rw [List.length_take]; omega
    have hcut : s.take H.width ++ ((s.drop H.width).take (H.size (s.take H.width)) ++
        (s.drop H.width).drop (H.size (s.take H.width))) = s := by
      rw [List.take_append_drop, List.take_append_drop]
    have hp := parse_cons (s := (s.drop H.width).drop (H.size (s.take H.width))) hw
      (Nat.le_of_not_lt hl) hlen
    have hf := feedAll_frame hw (Nat.le_of_not_lt hl) hlen
    rw [hcut] at hp
    conv_lhs => rw [← hcut, ← List.append_assoc]
    rw [feedAll_append, hf, ih, hp]
    rfl

theorem Ending.state_eq_refused {e : Ending β} : e.state H = .refused ↔ e = .refused := by
  cases e with
  | refused => exact iff_of_true rfl rfl
  | cut rest =>
    simp only [Ending.state]
    split <;> simp

/-! ## The grammar -/

section Grammar
variable (H)

/-- The stream is the frames of these bodies, one after the other. -/
inductive Frames : List (List β) → List β → Prop
  | nil : Frames [] []
  | cons : head.length = H.width → H.size head = body.length → Frames bodies s →
      Frames (body :: bodies) (head ++ (body ++ s))

/-- The stream ends within its first frame, in the header or in the body. -/
def Cut (rest : List β) : Prop :=
  rest.length < H.width ∨ rest.length < H.width + H.size (rest.take H.width)

/-- The headers at the beginnings of the frames of a stream. -/
inductive Met : List β → List β → Prop
  | first : head.length = H.width → Met (head ++ s) head
  | later : first.length = H.width → H.size first = body.length → Met s head →
      Met (first ++ (body ++ s)) head

end Grammar

theorem Met.width {s head : List β} (h : Met H s head) : head.length = H.width := by
  induction h with
  | first hw => exact hw
  | later _ _ _ ih => exact ih

theorem Met.length_le {s head : List β} (h : Met H s head) : head.length ≤ s.length := by
  induction h with
  | first =>
    rw [List.length_append]
    exact Nat.le_add_right _ _
  | later _ _ _ ih =>
    rw [List.length_append, List.length_append]
    omega

/-- The headers of a stream whose first frame is complete. -/
theorem Met.cases {first body s head : List β} (h : Met H (first ++ (body ++ s)) head)
    (hw : first.length = H.width) (hs : H.size first = body.length) :
    head = first ∨ Met H s head := by
  generalize hstream : first ++ (body ++ s) = stream at h
  cases h with
  | first hhead => exact .inl (List.append_inj_left hstream (hw.trans hhead.symm)).symm
  | later hw' hs' hlater =>
    obtain ⟨rfl, hrest⟩ := List.append_inj hstream (hw.trans hw'.symm)
    have hbody := List.append_inj_right hrest (hs.symm.trans hs')
    exact .inr (hbody ▸ hlater)

/-- The header of a stream that has no more than one. -/
theorem Met.eq_of_length_le {s head : List β} (h : Met H s head) (hs : s.length ≤ H.width) :
    head = s := by
  cases h with
  | @first head t hw =>
    rw [List.length_append] at hs
    have hnil : t = [] := List.eq_nil_of_length_eq_zero (by omega)
    rw [hnil, List.append_nil]
  | @later first t head body hw _ hlater =>
    have hle := hlater.length_le
    have hwidth := hlater.width
    have hpos := H.width_pos
    rw [List.length_append, List.length_append] at hs
    omega

theorem Met.append {s head : List β} (h : Met H s head) (t : List β) : Met H (s ++ t) head := by
  induction h with
  | first hw =>
    rw [List.append_assoc]
    exact .first hw
  | later hw hs _ ih =>
    rw [List.append_assoc, List.append_assoc]
    exact .later hw hs ih

/-- A stream whose first frame is complete. -/
theorem exists_frame {s : List β} (h : ¬s.length < H.width)
    (hs : ¬(s.drop H.width).length < H.size (s.take H.width)) :
    ∃ head body tail, head = s.take H.width ∧ tail = (s.drop H.width).drop (H.size head) ∧
      head.length = H.width ∧ H.size head = body.length ∧ s = head ++ (body ++ tail) := by
  refine ⟨s.take H.width, (s.drop H.width).take (H.size (s.take H.width)), _, rfl, rfl, ?_, ?_, ?_⟩
  · rw [List.length_take]
    omega
  · rw [List.length_take]
    omega
  · rw [List.take_append_drop, List.take_append_drop]

/-- The header at the beginning of a stream. -/
theorem Met.of_take {s : List β} (h : ¬s.length < H.width) : Met H s (s.take H.width) := by
  have hw : (s.take H.width).length = H.width := by rw [List.length_take]; omega
  have hmet := Met.first (H := H) (s := s.drop H.width) hw
  rwa [List.take_append_drop] at hmet

/-- The headers behind the first frame of a stream. -/
theorem Met.of_drop {s head : List β} (h : ¬s.length < H.width)
    (hs : ¬(s.drop H.width).length < H.size (s.take H.width))
    (hmet : Met H ((s.drop H.width).drop (H.size (s.take H.width))) head) : Met H s head := by
  obtain ⟨first, body, tail, rfl, rfl, hw, hsize, heq⟩ := exists_frame h hs
  rw [heq]
  exact .later hw hsize hmet

/-- **The parser is exact.** On a stream of frames and a rest without a complete frame, it
gives the bodies of the frames and stops at the rest. -/
theorem parse_of_frames {bodies : List (List β)} {t rest : List β} (h : Frames H bodies t)
    (hcut : Cut H rest) (hl : ∀ head, Met H (t ++ rest) head → H.size head ≤ H.limit) :
    parse H (t ++ rest) = ⟨bodies, .cut rest⟩ := by
  induction h with
  | nil =>
    rw [List.nil_append] at hl ⊢
    by_cases hw : rest.length < H.width
    · exact parse_short hw
    · have htake : (rest.take H.width).length = H.width := by rw [List.length_take]; omega
      have hshort : (rest.drop H.width).length < H.size (rest.take H.width) := by
        rw [List.length_drop]
        have := hcut.resolve_left hw
        omega
      have hp := parse_cut htake (hl _ (.of_take hw)) hshort
      rwa [List.take_append_drop] at hp
  | @cons head body bodies s hw hs _ ih =>
    rw [List.append_assoc, List.append_assoc] at hl ⊢
    rw [parse_cons hw (hl head (.first hw)) hs, ih fun later hmet => hl later (.later hw hs hmet)]

/-- Frames at the beginning of a stream are cut off it. -/
theorem Frames.parse_append {bodies : List (List β)} {t : List β} (h : Frames H bodies t)
    (hl : ∀ body ∈ bodies, body.length ≤ H.limit) (s : List β) :
    parse H (t ++ s) = ⟨bodies ++ (parse H s).frames, (parse H s).ending⟩ := by
  induction h with
  | nil => rfl
  | cons hw hs _ ih =>
    obtain ⟨hbody, hbodies⟩ := List.forall_mem_cons.mp hl
    rw [List.append_assoc, List.append_assoc, parse_cons hw (hs ▸ hbody) hs, ih hbodies]
    rfl

/-- Every stream is so divided. -/
theorem exists_frames (H : Header β) (s : List β) :
    ∃ bodies t rest, s = t ++ rest ∧ Frames H bodies t ∧ Cut H rest := by
  induction hn : s.length using Nat.strongRecOn generalizing s with
  | ind n ih =>
    by_cases hw : s.length < H.width
    · exact ⟨[], [], s, rfl, .nil, .inl hw⟩
    by_cases hs : (s.drop H.width).length < H.size (s.take H.width)
    · refine ⟨[], [], s, rfl, .nil, .inr ?_⟩
      rw [List.length_drop] at hs
      omega
    obtain ⟨head, body, tail, -, -, hhead, hsize, rfl⟩ := exists_frame hw hs
    have hpos := H.width_pos
    have hlt : tail.length < n := by
      rw [← hn, List.length_append, List.length_append]
      omega
    obtain ⟨bodies, t, rest, rfl, hframes, hcut⟩ := ih tail.length hlt tail rfl
    refine ⟨body :: bodies, head ++ (body ++ t), rest, ?_, .cons hhead hsize hframes, hcut⟩
    rw [List.append_assoc, List.append_assoc]

/-- A stream with no header of a refused size is cut where its last complete frame ends. -/
theorem parse_of_met {s : List β} (hl : ∀ head, Met H s head → H.size head ≤ H.limit) :
    ∃ rest, parse H s = ⟨(parse H s).frames, .cut rest⟩ := by
  obtain ⟨bodies, t, rest, rfl, hframes, hcut⟩ := exists_frames H s
  have hparse := parse_of_frames hframes hcut hl
  exact ⟨rest, by rw [hparse]⟩

/-- The frames of a beginning of a stream are a beginning of its frames. -/
theorem parse_prefix (s t : List β) : (parse H s).frames <+: (parse H (s ++ t)).frames := by
  have h := feedAll_append (H := H) .start s t
  rw [feedAll_parse, feedAll_parse] at h
  rw [(Prod.mk.inj h).2]
  exact List.prefix_append _ _

/-- A stream that goes on after a beginning was not refused there. -/
theorem not_refused_of_append {s t : List β} (h : (parse H (s ++ t)).ending ≠ .refused) :
    (parse H s).ending ≠ .refused := by
  intro hrefused
  have happend := congrArg Prod.fst (feedAll_append (H := H) .start s t)
  simp only [feedAll_parse, hrefused, Ending.state, feedAll_refused] at happend
  exact h (Ending.state_eq_refused.mp happend)

end Framing
