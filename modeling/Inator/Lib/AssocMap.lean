import Mathlib.Data.List.AList

/-! # Maps with distinct keys

A hash map is an association list with distinct keys: its iteration order is the order of the
entries, of which nothing is assumed. Lookup determines everything below, so each operation has
one lemma that says what it looks up to. -/

/-- A finite map. The keys are distinct by construction. -/
abbrev AssocMap (κ υ : Type*) := AList fun _ : κ => υ

namespace AssocMap
variable {κ : Type*} {υ υ' : Type*}

/-- Update every value. -/
def mapVals (f : κ → υ → υ') (m : AssocMap κ υ) : AssocMap κ υ' where
  entries := m.entries.map (.map id f)
  nodupKeys := m.nodupKeys.map₂ f m.entries

/-- Visit the entries in order and collect what each gives. -/
def collect (f : κ → υ → List ο) (m : AssocMap κ υ) : List ο :=
  m.entries.flatMap fun e => f e.1 e.2

@[simp] theorem keys_mapVals (f : κ → υ → υ') (m : AssocMap κ υ) :
    (mapVals f m).keys = m.keys := List.map₂_keys f m.entries

@[simp] theorem mem_mapVals {f : κ → υ → υ'} {m : AssocMap κ υ} {k : κ} :
    k ∈ mapVals f m ↔ k ∈ m := by
  rw [AList.mem_keys, AList.mem_keys, keys_mapVals]

/-- What is collected from distinct keys is distinct, if each item tells its key. -/
theorem nodup_collect {f : κ → υ → List ο} {m : AssocMap κ υ} (key : ο → κ)
    (hkey : ∀ k v, ∀ o ∈ f k v, key o = k) (hone : ∀ k v, (f k v).Nodup) :
    (collect f m).Nodup := by
  refine List.nodup_flatMap.mpr ⟨fun e _ => hone e.1 e.2, ?_⟩
  refine (List.nodupKeys_iff_pairwise.mp m.nodupKeys).imp ?_
  intro e e' hne o ho ho'
  exact hne ((hkey e.1 e.2 o ho).symm.trans (hkey e'.1 e'.2 o ho'))

variable [DecidableEq κ]

theorem mem_entries {m : AssocMap κ υ} {k : κ} {v : υ} :
    (⟨k, v⟩ : Sigma fun _ : κ => υ) ∈ m.entries ↔ m.lookup k = some v :=
  AList.mem_lookup_iff.symm

@[simp] theorem lookup_mapVals (f : κ → υ → υ') (m : AssocMap κ υ) (k : κ) :
    (mapVals f m).lookup k = (m.lookup k).map (f k) := List.dlookup_map₂ k

theorem mem_of_lookup {m : AssocMap κ υ} {k : κ} {v : υ} (h : m.lookup k = some v) : k ∈ m :=
  AList.lookup_isSome.mp (by rw [h]; rfl)

theorem lookup_of_mem {m : AssocMap κ υ} {k : κ} (h : k ∈ m) : ∃ v, m.lookup k = some v :=
  Option.isSome_iff_exists.mp (AList.lookup_isSome.mpr h)

theorem mem_collect {f : κ → υ → List ο} {m : AssocMap κ υ} {o : ο} :
    o ∈ collect f m ↔ ∃ k v, m.lookup k = some v ∧ o ∈ f k v := by
  rw [collect, List.mem_flatMap]
  constructor
  · rintro ⟨⟨k, v⟩, hentry, ho⟩
    exact ⟨k, v, mem_entries.mp hentry, ho⟩
  · rintro ⟨k, v, hlookup, ho⟩
    exact ⟨⟨k, v⟩, mem_entries.mpr hlookup, ho⟩

/-- Where the other values give nothing, what is collected is what one value gives. -/
theorem collect_eq {f : κ → υ → List ο} {m : AssocMap κ υ} {k : κ} {v : υ}
    (h : m.lookup k = some v)
    (hother : ∀ k' v', k' ≠ k → m.lookup k' = some v' → f k' v' = []) : collect f m = f k v := by
  have hentry := mem_entries.mpr h
  have hnodup := List.nodupKeys_iff_pairwise.mp m.nodupKeys
  have hnone : ∀ e ∈ m.entries, e.1 ≠ k → f e.1 e.2 = [] :=
    fun e he hne => hother e.1 e.2 hne (mem_entries.mp he)
  rw [collect]
  generalize m.entries = entries at hentry hnodup hnone
  induction entries with
  | nil => cases hentry
  | cons e entries ih =>
    obtain ⟨hfirst, hrest⟩ := List.pairwise_cons.mp hnodup
    rw [List.flatMap_cons]
    rcases List.mem_cons.mp hentry with rfl | hin
    · have hrest : entries.flatMap (fun e => f e.1 e.2) = [] := by
        refine List.flatMap_eq_nil_iff.mpr fun e' he' => ?_
        exact hnone e' (List.mem_cons_of_mem _ he') fun hk => hfirst e' he' hk.symm
      rw [hrest, List.append_nil]
    · rw [hnone e List.mem_cons_self (hfirst _ hin), List.nil_append]
      exact ih hin hrest fun e' he' => hnone e' (List.mem_cons_of_mem _ he')

/-- Of what is collected, the items of one key are those collected from its value. -/
theorem filter_collect {f : κ → υ → List ο} {m : AssocMap κ υ} {k : κ} {v : υ} (p : ο → Bool)
    (h : m.lookup k = some v) (hself : ∀ o ∈ f k v, p o = true)
    (hother : ∀ k' v', k' ≠ k → m.lookup k' = some v' → ∀ o ∈ f k' v', p o = false) :
    (collect f m).filter p = f k v := by
  have hfiltered : (collect f m).filter p = collect (fun k v => (f k v).filter p) m :=
    List.filter_flatMap ..
  have hnone : ∀ k' v', k' ≠ k → m.lookup k' = some v' → (f k' v').filter p = [] := by
    intro k' v' hk hlookup
    refine List.filter_eq_nil_iff.mpr fun o ho => ?_
    rw [hother k' v' hk hlookup o ho]
    exact Bool.false_ne_true
  rw [hfiltered, collect_eq h hnone]
  exact List.filter_eq_self.mpr hself

/-- Update the value of one key, if it is there. -/
def modify (k : κ) (f : υ → υ) (m : AssocMap κ υ) : AssocMap κ υ :=
  mapVals (fun k' v => if k' = k then f v else v) m

@[simp] theorem lookup_modify (k : κ) (f : υ → υ) (m : AssocMap κ υ) :
    (modify k f m).lookup k = (m.lookup k).map f := by
  rw [modify, lookup_mapVals]
  simp only [if_true]

theorem lookup_modify_ne {k k' : κ} (f : υ → υ) (m : AssocMap κ υ) (h : k' ≠ k) :
    (modify k f m).lookup k' = m.lookup k' := by
  rw [modify, lookup_mapVals]
  simp only [if_neg h, Option.map_id']

/-- What is looked up after an update was there before, or is the update. -/
theorem lookup_of_modify {k k' : κ} {f : υ → υ} {m : AssocMap κ υ} {v : υ}
    (h : (modify k f m).lookup k' = some v) :
    (k' ≠ k ∧ m.lookup k' = some v) ∨ ∃ v₀, k' = k ∧ m.lookup k' = some v₀ ∧ v = f v₀ := by
  by_cases hk : k' = k
  · subst hk
    rw [lookup_modify] at h
    obtain ⟨v₀, hv₀, rfl⟩ := Option.map_eq_some_iff.mp h
    exact .inr ⟨v₀, rfl, hv₀, rfl⟩
  · rw [lookup_modify_ne _ _ hk] at h
    exact .inl ⟨hk, h⟩

/-- Remove every key of a list. -/
def eraseAll (ks : List κ) (m : AssocMap κ υ) : AssocMap κ υ :=
  ks.foldl (fun m k => m.erase k) m

theorem lookup_eraseAll {ks : List κ} {m : AssocMap κ υ} {k : κ} :
    (eraseAll ks m).lookup k = if k ∈ ks then none else m.lookup k := by
  induction ks generalizing m with
  | nil => rfl
  | cons k' ks ih =>
    change (eraseAll ks (m.erase k')).lookup k = _
    rw [ih]
    by_cases hks : k ∈ ks
    · simp [hks]
    · by_cases hk : k = k'
      · subst hk
        simp
      · simp [hk, hks, AList.lookup_erase_ne hk]

/-- Where each key may ask for its own removal only, the keys that do not ask stay. -/
theorem lookup_eraseAll_collect {ω : Type*} {f : κ → υ → List κ} {m : AssocMap κ υ}
    {m' : AssocMap κ ω} {k : κ} {v : υ}
    (hself : ∀ k v, m.lookup k = some v → f k v = [] ∨ f k v = [k]) (h : m.lookup k = some v) :
    (eraseAll (collect f m) m').lookup k = if f k v = [] then m'.lookup k else none := by
  have hasks : k ∈ collect f m ↔ f k v ≠ [] := by
    rw [mem_collect]
    constructor
    · intro hmem
      obtain ⟨k', v', hlookup', hmem⟩ := hmem
      rcases hself k' v' hlookup' with hnil | hown
      · rw [hnil] at hmem
        cases hmem
      · rw [hown] at hmem
        cases List.mem_singleton.mp hmem
        cases h.symm.trans hlookup'
        rw [hown]
        exact List.cons_ne_nil _ _
    · intro hne
      refine ⟨k, v, h, ?_⟩
      rw [(hself k v h).resolve_left hne]
      exact List.mem_singleton_self k
  rw [lookup_eraseAll]
  by_cases hnil : f k v = []
  · rw [if_pos hnil, if_neg fun hmem => hasks.mp hmem hnil]
  · rw [if_neg hnil, if_pos (hasks.mpr hnil)]

/-- Update every value, and then remove the keys that the values before the update asked for. -/
def sweep (f : υ → υ) (asks : υ → List κ) (m : AssocMap κ υ) : AssocMap κ υ :=
  eraseAll (collect (fun _ v => asks v) m) (mapVals (fun _ v => f v) m)

/-- Where each value may ask for its own key only, each is updated or removed by itself. -/
theorem lookup_sweep {f : υ → υ} {asks : υ → List κ} {m : AssocMap κ υ}
    (hself : ∀ k v, m.lookup k = some v → asks v = [] ∨ asks v = [k]) (k : κ) :
    (sweep f asks m).lookup k =
      (m.lookup k).bind fun v => if asks v = [] then some (f v) else none := by
  cases h : m.lookup k with
  | none =>
    have hmapped : (mapVals (fun _ v => f v) m).lookup k = none := by rw [lookup_mapVals, h]; rfl
    rw [sweep, lookup_eraseAll, hmapped, ite_self]
    rfl
  | some v =>
    have hkept : (sweep f asks m).lookup k =
        if asks v = [] then (mapVals (fun _ v => f v) m).lookup k else none :=
      lookup_eraseAll_collect hself h
    rw [hkept, lookup_mapVals, h]
    rfl

/-- What is looked up after an erasure was there before. -/
theorem lookup_of_eraseAll {ks : List κ} {m : AssocMap κ υ} {k : κ} {v : υ}
    (h : (eraseAll ks m).lookup k = some v) : m.lookup k = some v := by
  rw [lookup_eraseAll] at h
  split at h
  · cases h
  · exact h

theorem lookup_of_erase {m : AssocMap κ υ} {k k' : κ} {v : υ}
    (h : (m.erase k').lookup k = some v) : k ≠ k' ∧ m.lookup k = some v := by
  by_cases hk : k = k'
  · subst hk
    rw [AList.lookup_erase] at h
    cases h
  · rw [AList.lookup_erase_ne hk] at h
    exact ⟨hk, h⟩

theorem lookup_of_insert {m : AssocMap κ υ} {k k' : κ} {v v' : υ}
    (h : (m.insert k' v').lookup k = some v) : (k = k' ∧ v = v') ∨ m.lookup k = some v := by
  by_cases hk : k = k'
  · subst hk
    rw [AList.lookup_insert] at h
    exact .inl ⟨rfl, (Option.some.inj h).symm⟩
  · rw [AList.lookup_insert_ne hk] at h
    exact .inr h

end AssocMap
