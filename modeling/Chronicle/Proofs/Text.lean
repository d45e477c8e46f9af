/-
Chronicle/Proofs/Text.lean

White space around texts, and runs of digits.

A text is what trimming leaves of it between two runs of white space
(`exists_append_trimChars`), and what is left neither begins nor ends with any
(`isBlank_of_head?_trimChars`, `isBlank_of_getLast?_trimChars`).  A text without white space
is left as it is (`trimChars_between`).

Digits denote the number whose digits they are in base ten, the last one first
(`number_eq_ofDigits`), and every number is denoted by its own digits (`number_toDigits`).
-/
import Chronicle.Text.Blank
import Chronicle.Text.Digits
import Mathlib.Data.List.Basic
import Mathlib.Data.List.Induction
import Mathlib.Data.List.TakeWhile
import Mathlib.Data.Nat.Digits.Defs

namespace Chronicle.Text

/-! ### White space -/

theorem trimStart_cons {c : Char} (h : isBlank c = false) (cs : List Char) :
    trimStart (c :: cs) = c :: cs :=
  List.dropWhile_cons_of_neg (ne_true_of_eq_false h)

/-- The white space around a text without any in it is what is trimmed. -/
theorem trimChars_between {before cs behind : List Char} (hbefore : ∀ c ∈ before, isBlank c = true)
    (hcs : ∀ c ∈ cs, isBlank c = false) (hne : cs ≠ [])
    (hbehind : ∀ c ∈ behind, isBlank c = true) : trimChars (before ++ cs ++ behind) = cs := by
  have htrim {xs ys : List Char} (hxs : ∀ c ∈ xs, isBlank c = true)
      (hys : ∀ c ∈ ys, isBlank c = false) (hne : ys ≠ []) (rest : List Char) :
      trimStart (xs ++ (ys ++ rest)) = ys ++ rest := by
    obtain ⟨c, ys, rfl⟩ := List.exists_cons_of_ne_nil hne
    rw [trimStart, List.dropWhile_append_of_pos hxs]
    exact trimStart_cons (hys c List.mem_cons_self) _
  have hfront : trimStart (before ++ cs ++ behind) = cs ++ behind := by
    rw [List.append_assoc]
    exact htrim hbefore hcs hne behind
  have hback : trimStart (cs ++ behind).reverse = cs.reverse := by
    have hrev := htrim (fun c hc => hbehind c (List.mem_reverse.1 hc))
      (fun c hc => hcs c (List.mem_reverse.1 hc)) (List.reverse_ne_nil_iff.2 hne) []
    rwa [List.append_nil, ← List.reverse_append] at hrev
  rw [trimChars, hfront, hback, List.reverse_reverse]

/-- What is in front of the trimmed text is white space. -/
theorem exists_append_trimStart (cs : List Char) :
    ∃ before, cs = before ++ trimStart cs ∧ ∀ c ∈ before, isBlank c = true :=
  ⟨cs.takeWhile isBlank, List.takeWhile_append_dropWhile.symm, fun _ hc =>
    List.mem_takeWhile_imp hc⟩

/-- What is around the trimmed text is white space. -/
theorem exists_append_trimChars (cs : List Char) :
    ∃ before behind, cs = before ++ trimChars cs ++ behind ∧
      (∀ c ∈ before, isBlank c = true) ∧ ∀ c ∈ behind, isBlank c = true := by
  obtain ⟨before, hfront, hbefore⟩ := exists_append_trimStart cs
  obtain ⟨behind, hback, hbehind⟩ := exists_append_trimStart (trimStart cs).reverse
  refine ⟨before, behind.reverse, ?_, hbefore, fun c hc => hbehind c (List.mem_reverse.1 hc)⟩
  -- the second trimming is that of the reversed text
  have hrest : trimStart cs = trimChars cs ++ behind.reverse := by
    rw [trimChars, ← List.reverse_append, ← hback, List.reverse_reverse]
  rw [List.append_assoc, ← hrest]
  exact hfront

theorem isBlank_of_head?_trimStart {cs : List Char} {c : Char}
    (h : c ∈ (trimStart cs).head?) : isBlank c = false := by
  have hdrop := List.head?_dropWhile_not isBlank cs
  rw [show (cs.dropWhile isBlank).head? = some c from h] at hdrop
  exact hdrop

theorem isBlank_of_head?_trimChars {cs : List Char} {c : Char}
    (h : c ∈ (trimChars cs).head?) : isBlank c = false := by
  rw [trimChars, List.head?_reverse] at h
  -- what is left at the end by the second trimming is what the first one has left there
  have hsuffix : trimStart (trimStart cs).reverse <:+ (trimStart cs).reverse :=
    List.dropWhile_suffix _
  obtain ⟨front, happend⟩ := hsuffix
  have hlast : c ∈ (trimStart cs).reverse.getLast? := by
    rw [← happend]
    exact List.mem_getLast?_append_of_mem_getLast? h
  rw [List.getLast?_reverse] at hlast
  exact isBlank_of_head?_trimStart hlast

theorem isBlank_of_getLast?_trimChars {cs : List Char} {c : Char}
    (h : c ∈ (trimChars cs).getLast?) : isBlank c = false := by
  rw [trimChars, List.getLast?_reverse] at h
  exact isBlank_of_head?_trimStart h

/-! ### Digits -/

theorem isDigit_iff {c : Char} : isDigit c = true ↔ '0' ≤ c ∧ c ≤ '9' := by
  show (48 ≤ c.toNat && c.toNat < 58) = true ↔ '0'.toNat ≤ c.toNat ∧ c.toNat ≤ '9'.toNat
  rw [Bool.and_eq_true, decide_eq_true_eq, decide_eq_true_eq]
  exact and_congr_right fun _ => Nat.lt_succ_iff

/-- A digit is neither white space nor a sign. -/
theorem not_mark_of_isDigit {c : Char} (h : isDigit c = true) :
    isBlank c = false ∧ c ≠ '-' ∧ c ≠ '+' := by
  simp only [isDigit, Bool.and_eq_true, decide_eq_true_eq] at h
  refine ⟨?_, ?_, ?_⟩
  · simp only [isBlank, Bool.or_eq_false_iff, Bool.and_eq_false_iff, decide_eq_false_iff_not,
      beq_eq_false_iff_ne]
    omega
  · rintro rfl
    exact absurd h.1 (by decide)
  · rintro rfl
    exact absurd h.1 (by decide)

theorem isDigit_of_mem_toDigits {n : Nat} {c : Char} (h : c ∈ Nat.toDigits 10 n) :
    isDigit c = true := by
  have hbounds : 48 ≤ c.toNat ∧ c.toNat ≤ 57 := by
    simpa [Char.isDigit, UInt32.le_iff_toNat_le] using
      Nat.isDigit_of_mem_toDigits (by decide) (by decide) h
  simp only [isDigit, Bool.and_eq_true, decide_eq_true_eq]
  omega

theorem not_mem_toDigits {c : Char} (h : isDigit c = false) (n : Nat) : c ∉ Nat.toDigits 10 n :=
  fun hmem => absurd (isDigit_of_mem_toDigits hmem) (ne_true_of_eq_false h)

theorem toNat_digitChar : ∀ n < 10, (Nat.digitChar n).toNat - 48 = n := by decide

theorem number_concat (ds : List Char) (c : Char) :
    number (ds ++ [c]) = number ds * 10 + (c.toNat - 48) := by
  rw [number, List.foldl_append]
  rfl

/-- The digits of a number denote it. -/
theorem number_toDigits (n : Nat) : number (Nat.toDigits 10 n) = n := by
  induction n using Nat.strongRecOn with
  | _ n ih =>
    by_cases h : n < 10
    · rw [Nat.toDigits_of_lt_base h]
      show 0 * 10 + (n.digitChar.toNat - 48) = n
      rw [toNat_digitChar n h]
      omega
    · rw [Nat.toDigits_of_base_le (by decide) (by omega), number_concat, ih (n / 10) (by omega),
        toNat_digitChar (n % 10) (Nat.mod_lt n (by decide))]
      omega

/-- Numbers are told from their digits. -/
theorem toDigits_injective : Function.Injective (Nat.toDigits 10) := by
  intro m n h
  rw [← number_toDigits m, h, number_toDigits]

/-- The last digit counts once, the one in front of it ten times, and so on. -/
theorem number_eq_ofDigits (ds : List Char) :
    number ds = Nat.ofDigits 10 (ds.reverse.map fun c => c.toNat - '0'.toNat) := by
  induction ds using List.reverseRecOn with
  | nil => rfl
  | append_singleton ds c ih =>
    rw [number_concat, ih, List.reverse_concat, List.map_cons, Nat.ofDigits_cons, Nat.mul_comm,
      Nat.add_comm]
    rfl

end Chronicle.Text
