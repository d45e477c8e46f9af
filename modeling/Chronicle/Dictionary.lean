/-
Chronicle/Dictionary.lean

Finite maps from texts, kept as a list in code point order of the keys.  Each
map has one representation, so equal maps are equal as data and print alike.

Main statements: `insertEntry` keeps the order (`pairwise_insertEntry`), and a
look-up sees the last value given for its key (`get?_insert`).
-/
namespace Chronicle

variable {α β : Type}

/-! ### Ordered entry lists -/

/-- Puts an entry at its place in an ordered list, replacing one of the same key. -/
def insertEntry (key : String) (value : α) : List (String × α) → List (String × α)
  | [] => [(key, value)]
  | (k, v) :: rest =>
    if key < k then (key, value) :: (k, v) :: rest
    else if key = k then (key, value) :: rest
    else (k, v) :: insertEntry key value rest

/-- The value of a key. -/
def valueOf? (key : String) : List (String × α) → Option α
  | [] => none
  | (k, v) :: rest => if key = k then some v else valueOf? key rest

/-- Entries in strictly increasing order of their keys. -/
def Ordered (entries : List (String × α)) : Prop :=
  entries.Pairwise fun a b => a.1 < b.1

theorem mem_keys_insertEntry {key k : String} {value : α} {entries : List (String × α)}
    (h : k ∈ (insertEntry key value entries).map Prod.fst) :
    k = key ∨ k ∈ entries.map Prod.fst := by
  induction entries with
  | nil => simp_all [insertEntry]
  | cons e rest ih =>
    simp only [insertEntry] at h
    split at h
    · simp_all
    · split at h
      · simp_all
      · simp only [List.map_cons, List.mem_cons] at h ⊢
        rcases h with h | h
        · exact .inr (.inl h)
        · rcases ih h with h | h
          · exact .inl h
          · exact .inr (.inr h)

theorem pairwise_insertEntry (key : String) (value : α) {entries : List (String × α)}
    (h : Ordered entries) : Ordered (insertEntry key value entries) := by
  induction entries with
  | nil => simp [insertEntry, Ordered]
  | cons e rest ih =>
    obtain ⟨k, v⟩ := e
    have hrest : Ordered rest := (List.pairwise_cons.1 h).2
    have hhead := (List.pairwise_cons.1 h).1
    simp only [insertEntry]
    split
    · rename_i hlt
      refine List.pairwise_cons.2 ⟨fun e he => ?_, h⟩
      rcases List.mem_cons.1 he with rfl | he
      · exact hlt
      · exact String.lt_trans hlt (hhead e he)
    · split
      · rename_i heq
        subst heq
        exact List.pairwise_cons.2 ⟨hhead, hrest⟩
      · rename_i hlt hne
        refine List.pairwise_cons.2 ⟨fun e he => ?_, ih hrest⟩
        have hk : e.1 ∈ (insertEntry key value rest).map Prod.fst := List.mem_map_of_mem he
        rcases mem_keys_insertEntry hk with hk | hk
        · rw [hk]
          exact Std.lt_of_le_of_ne (String.not_lt.1 hlt) (Ne.symm hne)
        · obtain ⟨e', he', hk'⟩ := List.mem_map.1 hk
          rw [← hk']
          exact hhead e' he'

theorem valueOf?_insertEntry (key k : String) (value : α) (entries : List (String × α)) :
    valueOf? k (insertEntry key value entries) =
      if k = key then some value else valueOf? k entries := by
  induction entries with
  | nil => simp [insertEntry, valueOf?]
  | cons e rest ih =>
    simp only [insertEntry]
    split
    · simp only [valueOf?]
    · split
      · rename_i heq
        subst heq
        simp only [valueOf?]
        split <;> simp_all
      · rename_i hne
        simp only [valueOf?, ih]
        split <;> split <;> simp_all

/-- An entry behind all others is added at the end. -/
theorem insertEntry_of_lt {key : String} {value : α} {entries : List (String × α)}
    (h : ∀ e ∈ entries, e.1 < key) : insertEntry key value entries = entries ++ [(key, value)] := by
  induction entries with
  | nil => rfl
  | cons e rest ih =>
    obtain ⟨k, v⟩ := e
    have hk : k < key := h (k, v) List.mem_cons_self
    have hne : key ≠ k := fun heq => String.lt_irrefl k (heq ▸ hk)
    rw [insertEntry, if_neg (String.lt_asymm hk), if_neg hne,
      ih fun e he => h e (List.mem_cons_of_mem _ he)]
    rfl

theorem mem_of_valueOf? {key : String} {value : α} {entries : List (String × α)}
    (h : valueOf? key entries = some value) : (key, value) ∈ entries := by
  induction entries with
  | nil => cases h
  | cons e rest ih =>
    obtain ⟨k, v⟩ := e
    simp only [valueOf?] at h
    split at h
    · rename_i heq
      cases h
      exact heq ▸ List.mem_cons_self
    · exact List.mem_cons_of_mem _ (ih h)

theorem insertEntry_of_valueOf? {key : String} {value : α} {entries : List (String × α)}
    (hordered : Ordered entries) (h : valueOf? key entries = some value) :
    insertEntry key value entries = entries := by
  induction entries with
  | nil => cases h
  | cons e rest ih =>
    obtain ⟨k, v⟩ := e
    simp only [valueOf?] at h
    split at h
    · rename_i heq
      cases h
      rw [insertEntry, if_neg (heq ▸ String.lt_irrefl key), if_pos heq, heq]
    · rename_i hne
      -- the key is in the rest, and so behind the first one
      have hlt : k < key := (List.pairwise_cons.1 hordered).1 _ (mem_of_valueOf? h)
      rw [insertEntry, if_neg (String.lt_asymm hlt), if_neg hne,
        ih (List.pairwise_cons.1 hordered).2 h]

theorem insertEntry_insertEntry (key : String) (value value' : α)
    (entries : List (String × α)) :
    insertEntry key value' (insertEntry key value entries) = insertEntry key value' entries := by
  induction entries with
  | nil => simp [insertEntry]
  | cons e rest ih =>
    obtain ⟨k, v⟩ := e
    simp only [insertEntry]
    split
    · simp [insertEntry]
    · split
      · simp [insertEntry]
      · rename_i hlt hne
        rw [insertEntry, if_neg hlt, if_neg hne, ih]

/-! ### Dictionaries -/

/-- A finite map from texts. -/
structure Dictionary (α : Type) where
  entries : List (String × α)
  ordered : Ordered entries

namespace Dictionary

/-- The map without entries. -/
def empty : Dictionary α := ⟨[], List.Pairwise.nil⟩

instance : Inhabited (Dictionary α) := ⟨empty⟩

instance [DecidableEq α] : DecidableEq (Dictionary α) := fun a b =>
  if h : a.entries = b.entries then
    isTrue (by cases a; cases b; simp_all)
  else isFalse fun hab => h (hab ▸ rfl)

@[ext] theorem ext {a b : Dictionary α} (h : a.entries = b.entries) : a = b := by
  cases a; cases b; simp_all

/-- Sets the value of a key. -/
def insert (d : Dictionary α) (key : String) (value : α) : Dictionary α :=
  ⟨insertEntry key value d.entries, pairwise_insertEntry key value d.ordered⟩

/-- The value of a key. -/
def get? (d : Dictionary α) (key : String) : Option α := valueOf? key d.entries

/-- Whether a key has a value. -/
def contains (d : Dictionary α) (key : String) : Bool := (d.get? key).isSome

/-- The number of keys. -/
def size (d : Dictionary α) : Nat := d.entries.length

/-- Whether there is no key. -/
def isEmpty (d : Dictionary α) : Bool := d.entries.isEmpty

/-- The keys, in code point order. -/
def keys (d : Dictionary α) : List String := d.entries.map Prod.fst

/-- The map that holds for each key the last value given. -/
def ofList (pairs : List (String × α)) : Dictionary α :=
  pairs.foldl (fun d p => d.insert p.1 p.2) empty

/-- Removes the value of a key. -/
def erase (d : Dictionary α) (key : String) : Dictionary α :=
  ⟨d.entries.filter fun e => e.1 ≠ key, d.ordered.filter _⟩

/-- Changes the value of a key, which starts as `start`. -/
def update (d : Dictionary α) (key : String) (start : α) (f : α → α) : Dictionary α :=
  d.insert key (f ((d.get? key).getD start))

@[simp] theorem get?_empty (key : String) : (empty : Dictionary α).get? key = none := rfl

theorem get?_insert (d : Dictionary α) (key k : String) (value : α) :
    (d.insert key value).get? k = if k = key then some value else d.get? k :=
  valueOf?_insertEntry key k value d.entries

/-- To set a key to the value that it has changes nothing. -/
theorem insert_self {d : Dictionary α} {key : String} {value : α} (h : d.get? key = some value) :
    d.insert key value = d :=
  ext (insertEntry_of_valueOf? d.ordered h)

/-- The last value that is set counts. -/
theorem insert_insert (d : Dictionary α) (key : String) (value value' : α) :
    (d.insert key value).insert key value' = d.insert key value' :=
  ext (insertEntry_insertEntry key value value' d.entries)

end Dictionary

end Chronicle
