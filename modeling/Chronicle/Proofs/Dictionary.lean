/-
Chronicle/Proofs/Dictionary.lean

A dictionary is determined by its look-ups.

Its keys are in strictly increasing order, so two dictionaries in which every key has the
same value are the same one (`Dictionary.ext_get?`).  The one made of a list of pairs holds
for each key the last value given (`Dictionary.get?_ofList`), and so it depends on these
values only (`Dictionary.ofList_congr`, `Dictionary.ofList_perm`).
-/
import Chronicle.Dictionary
import Mathlib.Data.List.Dedup
import Mathlib.Data.List.Induction
import Mathlib.Data.List.Sort

namespace Chronicle

variable {α : Type}

/-! ### Entries by key -/

section

variable {entries entries' : List (String × α)}

theorem valueOf?_eq_some_iff (hkeys : (entries.map Prod.fst).Nodup) {key : String} {value : α} :
    valueOf? key entries = some value ↔ (key, value) ∈ entries := by
  constructor
  · exact mem_of_valueOf?
  · intro hmem
    induction entries with
    | nil => cases hmem
    | cons e rest ih =>
      obtain ⟨k, v⟩ := e
      obtain ⟨hfirst, hrest⟩ := List.nodup_cons.1 hkeys
      -- a second entry for the key would repeat it
      rcases List.mem_cons.1 hmem with heq | hmem
      · cases heq
        rw [valueOf?, if_pos rfl]
      · have hkey : key ∈ rest.map Prod.fst := List.mem_map_of_mem hmem
        have hne : key ≠ k := fun heq => hfirst (heq ▸ hkey)
        rw [valueOf?, if_neg hne, ih hrest hmem]

/-- The order of entries does not matter, if no key is repeated. -/
theorem valueOf?_perm (h : entries.Perm entries') (hkeys : (entries'.map Prod.fst).Nodup)
    (key : String) : valueOf? key entries = valueOf? key entries' := by
  have hkeys' : (entries.map Prod.fst).Nodup := (h.map Prod.fst).nodup_iff.2 hkeys
  -- a value is found if and only if its entry is there
  apply Option.ext
  intro value
  rw [valueOf?_eq_some_iff hkeys, valueOf?_eq_some_iff hkeys', h.mem_iff]

theorem isSome_valueOf?_iff {key : String} :
    (valueOf? key entries).isSome ↔ key ∈ entries.map Prod.fst := by
  induction entries with
  | nil => simp [valueOf?]
  | cons e rest ih =>
    rw [valueOf?, List.map_cons, List.mem_cons, ← ih]
    split
    · simp_all
    · simp_all

/-- Keys in strictly increasing order are not repeated. -/
theorem Ordered.nodup (h : Ordered entries) : (entries.map Prod.fst).Nodup := by
  refine List.pairwise_map.2 (List.Pairwise.imp (fun {a b} hlt heq => ?_) h)
  rw [heq] at hlt
  exact String.lt_irrefl _ hlt

/-- Ordered entries are determined by the value of each key. -/
theorem Ordered.ext (h : Ordered entries) (h' : Ordered entries')
    (hvalues : ∀ key, valueOf? key entries = valueOf? key entries') : entries = entries' := by
  have hmem : ∀ e, e ∈ entries ↔ e ∈ entries' := fun e => by
    rw [← valueOf?_eq_some_iff h.nodup, ← valueOf?_eq_some_iff h'.nodup, hvalues]
  have hperm : entries.Perm entries' :=
    (List.perm_ext_iff_of_nodup h.nodup.of_map h'.nodup.of_map).2 hmem
  -- there is one order only in which keys increase
  exact hperm.eq_of_pairwise (fun a b _ _ hab hba => absurd hba (String.lt_asymm hab)) h h'

end

/-! ### Last values -/

/-- The last value that some pairs give for a key. -/
def lastValue? (pairs : List (String × α)) (key : String) : Option α := valueOf? key pairs.reverse

theorem lastValue?_concat (pairs : List (String × α)) (p : String × α) (key : String) :
    lastValue? (pairs ++ [p]) key = if key = p.1 then some p.2 else lastValue? pairs key := by
  rw [lastValue?, List.reverse_concat]
  rfl

theorem isSome_lastValue?_iff {pairs : List (String × α)} {key : String} :
    (lastValue? pairs key).isSome ↔ key ∈ pairs.map Prod.fst := by
  rw [lastValue?, isSome_valueOf?_iff, List.map_reverse, List.mem_reverse]

/-- The order does not matter, if each key is given once. -/
theorem lastValue?_perm {pairs pairs' : List (String × α)} (h : pairs.Perm pairs')
    (hkeys : (pairs'.map Prod.fst).Nodup) (key : String) :
    lastValue? pairs key = lastValue? pairs' key := by
  have hkeys' : (pairs'.reverse.map Prod.fst).Nodup := by
    rwa [List.map_reverse, List.nodup_reverse]
  have hperm : pairs.reverse.Perm pairs'.reverse :=
    pairs.reverse_perm.trans (h.trans pairs'.reverse_perm.symm)
  exact valueOf?_perm hperm hkeys' key

/-- Pairs with other keys do not matter. -/
theorem lastValue?_append_of_ne (pairs : List (String × α)) {pairs' : List (String × α)}
    {key : String} (h : ∀ p ∈ pairs', p.1 ≠ key) :
    lastValue? (pairs ++ pairs') key = lastValue? pairs key := by
  induction pairs' using List.reverseRecOn with
  | nil => rw [List.append_nil]
  | append_singleton pairs' p ih =>
    have hne : key ≠ p.1 := (h p (List.mem_append_right _ List.mem_cons_self)).symm
    rw [← List.append_assoc, lastValue?_concat, if_neg hne]
    exact ih fun q hq => h q (List.mem_append_left _ hq)

/-- If no key is repeated, the last value is the only one. -/
theorem lastValue?_of_nodup {pairs : List (String × α)} (h : (pairs.map Prod.fst).Nodup)
    (key : String) : lastValue? pairs key = valueOf? key pairs :=
  valueOf?_perm pairs.reverse_perm h key

/-! ### Dictionaries -/

namespace Dictionary

theorem ext_get? {d d' : Dictionary α} (h : ∀ key, d.get? key = d'.get? key) : d = d' :=
  ext (d.ordered.ext d'.ordered h)

theorem pairwise_keys (d : Dictionary α) : d.keys.Pairwise (· < ·) :=
  List.pairwise_map.2 d.ordered

theorem mem_keys {d : Dictionary α} {key : String} : key ∈ d.keys ↔ (d.get? key).isSome :=
  isSome_valueOf?_iff.symm

theorem get?_of_mem {d : Dictionary α} {e : String × α} (h : e ∈ d.entries) :
    d.get? e.1 = some e.2 :=
  (valueOf?_eq_some_iff d.ordered.nodup).2 h

/-- Only the key that is removed loses its value. -/
theorem get?_erase (d : Dictionary α) (key k : String) :
    (d.erase key).get? k = if k = key then none else d.get? k := by
  show valueOf? k (d.entries.filter fun e => e.1 ≠ key) =
    if k = key then none else valueOf? k d.entries
  induction d.entries with
  | nil => simp [valueOf?]
  | cons e rest ih =>
    by_cases hkey : e.1 = key
    · rw [List.filter_cons_of_neg (by simpa using hkey), ih, valueOf?, hkey]
      split
      · rfl
      · rfl
    · rw [List.filter_cons_of_pos (by simpa using hkey), valueOf?, valueOf?, ih]
      split
      · rename_i heq
        rw [if_neg (heq ▸ hkey)]
      · rfl

theorem length_keys (d : Dictionary α) : d.keys.length = d.size := List.length_map _

/-- The last value counts that a list of pairs gives for a key. -/
theorem get?_ofList (pairs : List (String × α)) (key : String) :
    (ofList pairs).get? key = lastValue? pairs key := by
  induction pairs using List.reverseRecOn with
  | nil => rfl
  | append_singleton pairs p ih =>
    rw [ofList, List.foldl_append, lastValue?_concat, ← ih]
    exact get?_insert (ofList pairs) p.1 key p.2

theorem mem_keys_ofList {pairs : List (String × α)} {key : String} :
    key ∈ (ofList pairs).keys ↔ key ∈ pairs.map Prod.fst := by
  rw [mem_keys, get?_ofList, isSome_lastValue?_iff]

/-- The size is the number of keys that are given, once or more. -/
theorem size_ofList (pairs : List (String × α)) :
    (ofList pairs).size = (pairs.map Prod.fst).dedup.length := by
  have hnodup : (ofList pairs).keys.Nodup := (ofList pairs).ordered.nodup
  have hperm : (ofList pairs).keys.Perm (pairs.map Prod.fst).dedup :=
    (List.perm_ext_iff_of_nodup hnodup (List.nodup_dedup _)).2 fun key => by
      rw [mem_keys_ofList, List.mem_dedup]
  rw [← length_keys, hperm.length_eq]

theorem ofList_congr {pairs pairs' : List (String × α)}
    (h : ∀ key, lastValue? pairs key = lastValue? pairs' key) : ofList pairs = ofList pairs' :=
  ext_get? fun key => by rw [get?_ofList, get?_ofList, h]

theorem ofList_perm {pairs pairs' : List (String × α)} (h : pairs.Perm pairs')
    (hkeys : (pairs'.map Prod.fst).Nodup) : ofList pairs = ofList pairs' :=
  ofList_congr (lastValue?_perm h hkeys)

end Dictionary

end Chronicle
