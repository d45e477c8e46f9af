/-
Chronicle/Proofs/Metrics.lean

What a family says after something was counted.

The values of a family are told apart by a hash of their labels, `Series.key`.  A
change for some labels is seen under all labels of the same key, and under no others
(`Series.get?_update`).  A total over labels that satisfy a condition goes up by one,
if these labels do and all with the same key agree about it
(`Series.total_increment`).

Whatever labels are counted, each are counted as often as there are some with their
key (`Series.count_foldl_increment`).  That is how often they occur themselves, unless
others share the key (`Series.Unshared`).  Some do (`Series.key_of_join_eq`).
-/
import Chronicle.Metrics
import Mathlib.Data.List.Induction

namespace Chronicle.Series

variable {α : Type}

/-! ### Keys -/

@[simp] theorem key_nil : key [] = 0xcbf29ce484222325 := rfl

theorem key_concat (labels : List String) (label : String) :
    key (labels ++ [label]) = label.toUTF8.data.foldl absorb (key labels) := by
  rw [key, List.foldl_append]
  rfl

/-- The key is the hash of the text that the labels are one after another. -/
theorem key_eq_foldl (labels : List String) :
    key labels = (String.join labels).toUTF8.data.foldl absorb 0xcbf29ce484222325 := by
  induction labels using List.reverseRecOn with
  | nil => rfl
  | append_singleton labels label ih =>
    rw [key_concat, ih, String.join_append, String.join_cons, String.join_nil]
    simp

/-- Labels that read the same share a key. -/
theorem key_of_join_eq {labels labels' : List String} (h : String.join labels = String.join labels') :
    key labels = key labels' := by
  rw [key_eq_foldl, h, key_eq_foldl]

/-- No others of the labels that are counted share a key with these. -/
def Unshared (labels : List String) (counted : List (List String)) : Prop :=
  ∀ other ∈ counted, key other = key labels → other = labels

instance (labels : List String) (counted : List (List String)) :
    Decidable (Unshared labels counted) :=
  inferInstanceAs (Decidable (∀ other ∈ counted, key other = key labels → other = labels))

/-- Where no others share it, a key stands for its labels. -/
theorem Unshared.key_eq_iff {labels : List String} {counted : List (List String)}
    (h : Unshared labels counted) {other : List String} (hother : other ∈ counted) :
    key other = key labels ↔ other = labels :=
  ⟨h other hother, congrArg key⟩

/-! ### Values -/

@[simp] theorem get?_nil (labels : List String) : get? ([] : Series α) labels = none := rfl

theorem get?_cons (p : List String × α) (s : Series α) (labels : List String) :
    get? (p :: s) labels = if key p.1 = key labels then some p.2 else s.get? labels := by
  by_cases h : key p.1 = key labels
  · simp [get?, h]
  · simp [get?, h]

/-- Labels that read the same have the same value. -/
theorem get?_congr (s : Series α) {labels labels' : List String} (h : key labels = key labels') :
    s.get? labels = s.get? labels' := by
  rw [get?, get?, h]

theorem get?_update (s : Series α) (labels : List String) (start : α) (f : α → α)
    (labels' : List String) :
    (s.update labels start f).get? labels' =
      if key labels = key labels' then some (f ((s.get? labels).getD start))
      else s.get? labels' := by
  induction s with
  | nil => exact get?_cons _ _ _
  | cons p s ih =>
    by_cases hp : key p.1 = key labels
    · simp only [update, hp, if_true, get?_cons, Option.getD_some]
      split
      · rfl
      · rfl
    · simp only [update, hp, if_false, get?_cons, ih]
      by_cases hl : key labels = key labels'
      · rw [← hl, if_neg hp, if_pos rfl, if_pos rfl]
      · simp only [if_neg hl]

/-- When values are set one after the other, the last one for some labels stays. -/
theorem get?_foldl_update {β : Type} (f : β → List String) (start : α) (value : β → α) (xs : List β)
    (s : Series α) (labels : List String) :
    (xs.foldl (fun s x => s.update (f x) start fun _ => value x) s).get? labels =
      ((xs.filter fun x => key (f x) == key labels).getLast?.map value).or (s.get? labels) := by
  induction xs generalizing s with
  | nil => rfl
  | cons x xs ih =>
    rw [List.foldl_cons, ih, get?_update]
    by_cases hx : key (f x) = key labels
    · simp only [hx, if_true, List.filter_cons, beq_self_eq_true, List.getLast?_cons]
      cases (xs.filter fun x => key (f x) == key labels).getLast? <;> rfl
    · simp only [hx, if_false, List.filter_cons, beq_eq_false_iff_ne.2 hx, Bool.false_eq_true]

/-- A change adds the labels at most. -/
theorem labels_of_mem_update {s : Series α} {labels : List String} {start : α} {f : α → α}
    {p : List String × α} (h : p ∈ s.update labels start f) :
    p.1 = labels ∨ ∃ p' ∈ s, p'.1 = p.1 := by
  induction s with
  | nil =>
    rw [update, List.mem_singleton] at h
    exact .inl (congrArg Prod.fst h)
  | cons q s ih =>
    rw [update] at h
    split at h
    · rcases List.mem_cons.1 h with rfl | h
      · exact .inr ⟨q, List.mem_cons_self, rfl⟩
      · exact .inr ⟨p, List.mem_cons_of_mem q h, rfl⟩
    · rcases List.mem_cons.1 h with rfl | h
      · exact .inr ⟨p, List.mem_cons_self, rfl⟩
      · rcases ih h with h | ⟨p', hp', h⟩
        · exact .inl h
        · exact .inr ⟨p', List.mem_cons_of_mem q hp', h⟩

/-! ### Counts -/

@[simp] theorem count_nil (labels : List String) : count [] labels = 0 := rfl

theorem count_increment (s : Series Nat) (labels labels' : List String) :
    (s.increment labels).count labels' =
      s.count labels' + if key labels = key labels' then 1 else 0 := by
  rw [increment, count, count, get?_update]
  split
  · rename_i h
    rw [get?_congr s h]
    rfl
  · rfl

/-- Counting things one after the other. -/
theorem count_foldl_increment {β : Type} (f : β → List String) (xs : List β) (s : Series Nat)
    (labels : List String) :
    (xs.foldl (fun s x => s.increment (f x)) s).count labels =
      s.count labels + xs.countP fun x => key (f x) == key labels := by
  induction xs generalizing s with
  | nil => rfl
  | cons x xs ih =>
    rw [List.foldl_cons, ih, count_increment, List.countP_cons]
    simp only [beq_iff_eq]
    omega

/-- Labels that share their key with no others occur as often as the key. -/
theorem countP_of_unshared {β : Type} {f : β → List String} {xs : List β} {labels : List String}
    (h : Unshared labels (xs.map f)) :
    xs.countP (fun x => key (f x) == key labels) = xs.countP fun x => f x == labels := by
  refine List.countP_congr fun x hx => ?_
  simp only [beq_iff_eq]
  exact h.key_eq_iff (List.mem_map_of_mem hx)

/-! ### Totals -/

@[simp] theorem total_nil (p : List String → Bool) : total [] p = 0 := rfl

theorem total_cons (e : List String × Nat) (s : Series Nat) (p : List String → Bool) :
    total (e :: s) p = (if p e.1 then e.2 else 0) + s.total p := by
  simp only [total, ← List.sum_eq_foldl]
  by_cases h : p e.1
  · simp [h]
  · simp [h]

/-- What is counted for labels is counted in the total, if the labels that read the
same are all in it or none of them is. -/
theorem total_increment {s : Series Nat} {labels : List String} {p : List String → Bool}
    (h : ∀ e ∈ s, key e.1 = key labels → p e.1 = p labels) :
    (s.increment labels).total p = s.total p + if p labels then 1 else 0 := by
  induction s with
  | nil => simp [increment, update, total_cons]
  | cons e s ih =>
    by_cases he : key e.1 = key labels
    · have hp := h e List.mem_cons_self he
      simp only [increment, update, he, if_true, total_cons, hp]
      split
      · omega
      · omega
    · have hs := ih fun e' he' => h e' (List.mem_cons_of_mem e he')
      simp only [increment, update, he, if_false, total_cons] at hs ⊢
      omega

/-! ### Labels counted one after the other -/

/-- The counts of some labels, each once. -/
def ofLabels (counted : List (List String)) : Series Nat := counted.foldl increment []

theorem ofLabels_concat (counted : List (List String)) (labels : List String) :
    ofLabels (counted ++ [labels]) = (ofLabels counted).increment labels := by
  rw [ofLabels, List.foldl_append]
  rfl

theorem mem_of_mem_ofLabels {counted : List (List String)} {e : List String × Nat}
    (h : e ∈ ofLabels counted) : e.1 ∈ counted := by
  induction counted using List.reverseRecOn generalizing e with
  | nil => cases h
  | append_singleton counted labels ih =>
    rw [ofLabels_concat] at h
    rcases labels_of_mem_update h with hnew | ⟨e', he', hold⟩
    · exact List.mem_append_right _ (List.mem_singleton.2 hnew)
    · exact List.mem_append_left _ (hold ▸ ih he')

theorem count_ofLabels (counted : List (List String)) (labels : List String) :
    (ofLabels counted).count labels = counted.countP fun l => key l == key labels :=
  (count_foldl_increment id counted [] labels).trans (Nat.zero_add _)

/-- A total is the number of labels in it, if none of them share their key with others. -/
theorem total_ofLabels {counted : List (List String)} {p : List String → Bool}
    (h : ∀ l ∈ counted, p l → Unshared l counted) :
    (ofLabels counted).total p = counted.countP p := by
  have hagree : ∀ l ∈ counted, ∀ l' ∈ counted, key l = key l' → p l = p l' := by
    intro l hl l' hl' hkey
    by_cases hp : p l
    · rw [h l hl hp l' hl' hkey.symm]
    · by_cases hp' : p l'
      · rw [h l' hl' hp' l hl hkey]
      · simp only [hp, hp']
  clear h
  induction counted using List.reverseRecOn with
  | nil => rfl
  | append_singleton counted labels ih =>
    have hbefore := ih fun l hl l' hl' =>
      hagree l (List.mem_append_left _ hl) l' (List.mem_append_left _ hl')
    have hlast : labels ∈ counted ++ [labels] := List.mem_append_right _ List.mem_cons_self
    rw [ofLabels_concat, List.countP_append, List.countP_singleton, ← hbefore]
    refine total_increment fun e he hkey => ?_
    exact hagree _ (List.mem_append_left _ (mem_of_mem_ofLabels he)) labels hlast hkey

end Chronicle.Series
