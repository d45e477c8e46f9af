/-
Chronicle/Proofs/Date.lean

Dates are read back as they were written.

A number is read up to a width or to the first character that is no digit, so what
follows it matters only if it is written with fewer digits (`readNumber_append`).
Month and day are written with as many as are read; so are years without a sign, and
behind all others there is a hyphen.

Main result: `Date.parse?_toString`.
-/
import Chronicle.Date
import Chronicle.Proofs.Text

namespace Chronicle.Date

open Text

/-! ### Padded numbers -/

theorem isDigit_of_mem_padded {width n : Nat} {c : Char} (h : c ∈ padded width n) :
    isDigit c = true := by
  rcases List.mem_append.1 h with h | h
  · rw [List.eq_of_mem_replicate h]
    rfl
  · exact isDigit_of_mem_toDigits h

theorem padded_ne_nil (width n : Nat) : padded width n ≠ [] :=
  List.append_ne_nil_of_right_ne_nil _ Nat.toDigits_ne_nil

/-- Zeros in front change nothing. -/
theorem number_padded (width n : Nat) : number (padded width n) = n := by
  have hzeros (k : Nat) : (List.replicate k '0').foldl (fun n c => n * 10 + (c.toNat - 48)) 0 =
      0 := by
    induction k with
    | zero => rfl
    | succ k ih =>
      rw [List.replicate_succ, List.foldl_cons]
      exact ih
  rw [padded, number, List.foldl_append, hzeros]
  exact number_toDigits n

/-- A number is padded to a width, if it has no more digits. -/
theorem length_padded {width n : Nat} (h : (Nat.toDigits 10 n).length ≤ width) :
    (padded width n).length = width := by
  rw [padded, List.length_append, List.length_replicate, Nat.sub_add_cancel h]

/-! ### Reading numbers -/

/-- A number is read to its end, if it is as long as it may be or does not go on. -/
theorem readNumber_append {width : Nat} {ds rest : List Char} (hds : ∀ c ∈ ds, isDigit c = true)
    (hne : ds ≠ []) (hend : ds.length = width ∨
      ds.length ≤ width ∧ ∀ c ∈ rest.head?, isDigit c = false) :
    readNumber width (ds ++ rest) = some (number ds, rest) := by
  have hread : ((ds ++ rest).take width).takeWhile isDigit = ds := by
    rcases hend with rfl | ⟨hle, hrest⟩
    · rw [List.take_left]
      exact List.takeWhile_eq_self_iff.2 hds
    · rw [List.take_append, List.take_of_length_le hle, List.takeWhile_append_of_pos hds]
      have hnone : (rest.take (width - ds.length)).takeWhile isDigit = [] := by
        rcases rest with _ | ⟨c, rest⟩
        · rw [List.take_nil, List.takeWhile_nil]
        · rcases width - ds.length with _ | k
          · rfl
          · rw [List.take_succ_cons,
              List.takeWhile_cons_of_neg (ne_true_of_eq_false (hrest c rfl))]
      rw [hnone, List.append_nil]
  unfold readNumber
  dsimp only
  rw [hread, if_neg (by rwa [List.isEmpty_iff]), List.drop_left]

theorem readNumber_padded {width n : Nat} (h : (Nat.toDigits 10 n).length ≤ width)
    (rest : List Char) : readNumber width (padded width n ++ rest) = some (n, rest) := by
  rw [readNumber_append (fun _ => isDigit_of_mem_padded) (padded_ne_nil width n)
    (.inl (length_padded h)), number_padded]

/-- A padded number begins with a digit. -/
theorem exists_padded_cons (width n : Nat) (rest : List Char) :
    ∃ c cs, padded width n ++ rest = c :: cs ∧ isDigit c = true := by
  obtain ⟨c, cs, hcs⟩ := List.exists_cons_of_ne_nil (padded_ne_nil width n)
  refine ⟨c, cs ++ rest, by rw [hcs, List.cons_append], ?_⟩
  exact isDigit_of_mem_padded (hcs ▸ List.mem_cons_self)

theorem trimStart_padded (width n : Nat) (rest : List Char) :
    trimStart (padded width n ++ rest) = padded width n ++ rest := by
  obtain ⟨c, cs, hcs, hc⟩ := exists_padded_cons width n rest
  rw [hcs, trimStart_cons (not_mark_of_isDigit hc).1]

/-- A number behind a sign is read up to the hyphen. -/
theorem readNumber_signed (width n : Nat) (rest : List Char) :
    readNumber (padded width n ++ '-' :: rest).length (padded width n ++ '-' :: rest) =
      some (n, '-' :: rest) := by
  rw [readNumber_append (fun _ => isDigit_of_mem_padded) (padded_ne_nil width n)
    (.inr ⟨by simp, by rintro c ⟨⟩; rfl⟩), number_padded]

/-! ### Dates -/

/-- The year is read up to the hyphen behind it. -/
theorem readYear_yearText (year : Int) (rest : List Char) :
    readYear (yearText year ++ '-' :: rest) = some (year, '-' :: rest) := by
  by_cases hshort : 0 ≤ year ∧ year ≤ 9999
  · obtain ⟨n, rfl⟩ := Int.eq_ofNat_of_zero_le hshort.1
    have hn : (Nat.toDigits 10 n).length ≤ 4 :=
      (Nat.length_toDigits_le_iff (by decide) (by decide)).2 (by omega)
    rw [yearText, if_pos hshort, Int.toNat_natCast, readYear, trimStart_padded]
    have hread := readNumber_padded hn ('-' :: rest)
    obtain ⟨c, cs, hcs, hc⟩ := exists_padded_cons 4 n ('-' :: rest)
    obtain ⟨-, hminus, hplus⟩ := not_mark_of_isDigit hc
    rw [hcs] at hread ⊢
    -- the first digit is not taken for a sign
    split
    · rename_i heq
      exact absurd (List.cons.inj heq).1 hminus
    · rename_i heq
      exact absurd (List.cons.inj heq).1 hplus
    · rw [hread]
      rfl
  · rw [yearText, if_neg hshort]
    by_cases hnegative : year < 0
    · rw [if_pos hnegative, List.cons_append, readYear, trimStart_cons rfl]
      show (readNumber _ _).map _ = _
      rw [readNumber_signed, Option.map_some]
      have hyear : -(year.natAbs : Int) = year := by omega
      rw [hyear]
    · rw [if_neg hnegative, List.cons_append, readYear, trimStart_cons rfl]
      show (readNumber _ _).map _ = _
      rw [readNumber_signed, Option.map_some]
      have hyear : (year.natAbs : Int) = year := by omega
      rw [hyear]

theorem readPart_padded {n : Nat} (h : n < 100) (rest : List Char) :
    readPart ('-' :: padded 2 n ++ rest) = some (n, rest) := by
  have hdigits : (Nat.toDigits 10 n).length ≤ 2 :=
    (Nat.length_toDigits_le_iff (by decide) (by decide)).2 h
  rw [readPart, List.cons_append, trimStart_cons rfl]
  show readNumber 2 (trimStart _) = _
  rw [trimStart_padded, readNumber_padded hdigits]

/-- The parts of a date make it up. -/
theorem ofParts?_self (d : Date) : ofParts? d.year d.month d.day = some d := by
  rw [ofParts?, dif_pos d.year_mem, dif_pos d.month_mem, dif_pos d.day_mem]

theorem day_lt (d : Date) : d.day < 100 := by
  have hday := d.day_mem.2
  unfold daysInMonth at hday
  split at hday
  · split at hday <;> omega
  · split at hday <;> omega

/-- A date is read back from its text. -/
theorem parse?_toString (d : Date) : parse? d.toString = some d := by
  have hmonth : d.month < 100 := by
    have := d.month_mem.2
    omega
  have hday : readPart ('-' :: padded 2 d.day) = some (d.day, []) := by
    have := readPart_padded d.day_lt []
    rwa [List.append_nil] at this
  have htext : yearText d.year ++ '-' :: padded 2 d.month ++ '-' :: padded 2 d.day =
      yearText d.year ++ '-' :: (padded 2 d.month ++ '-' :: padded 2 d.day) := by
    rw [List.append_assoc, List.cons_append]
  rw [parse?, toString, String.toList_ofList, htext, readYear_yearText]
  show (readPart ('-' :: padded 2 d.month ++ '-' :: padded 2 d.day) >>= fun r =>
    readPart r.2 >>= fun r' =>
      if (trimStart r'.2).isEmpty then ofParts? d.year r.1 r'.1 else none) = some d
  rw [readPart_padded hmonth]
  show (readPart ('-' :: padded 2 d.day) >>= fun r' =>
    if (trimStart r'.2).isEmpty then ofParts? d.year d.month r'.1 else none) = some d
  rw [hday]
  exact d.ofParts?_self

end Chronicle.Date
