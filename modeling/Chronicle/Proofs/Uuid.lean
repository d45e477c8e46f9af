/-
Chronicle/Proofs/Uuid.lean

Identifiers are read back as they were written.

Main result: `Uuid.parse?_toString`.
-/
import Chronicle.Uuid
import Mathlib.Data.List.Basic
import Mathlib.Tactic.Ring

namespace Chronicle.Uuid

/-! ### Digits -/

theorem digitValue?_digit : ∀ n < 16, digitValue? (digit n) = some n := by decide

theorem length_digitsOnto (n count : Nat) (rest : List Char) :
    (digitsOnto n count rest).length = count + rest.length := by
  induction count generalizing n rest with
  | zero => exact (Nat.zero_add _).symm
  | succ count ih =>
    rw [digitsOnto, ih, List.length_cons]
    omega

theorem length_hexDigits (u : Uuid) : u.hexDigits.length = 32 :=
  length_digitsOnto _ 32 []

/-- The number that digits add to one that was read before them. -/
theorem foldlM_digitsOnto (n count before : Nat) (rest : List Char) :
    (digitsOnto n count rest).foldlM (fun n c => (digitValue? c).map (n * 16 + ·)) before =
      rest.foldlM (fun n c => (digitValue? c).map (n * 16 + ·))
        (before * 16 ^ count + n % 16 ^ count) := by
  induction count generalizing n rest with
  | zero => rw [digitsOnto, Nat.pow_zero, Nat.mul_one, Nat.mod_one, Nat.add_zero]
  | succ count ih =>
    have hvalue : (before * 16 ^ count + n / 16 % 16 ^ count) * 16 + n % 16 =
        before * 16 ^ (count + 1) + n % 16 ^ (count + 1) := by
      rw [Nat.pow_succ', Nat.mod_mul]
      ring
    rw [digitsOnto, ih, List.foldlM_cons, digitValue?_digit _ (Nat.mod_lt n (by decide))]
    exact congrArg (rest.foldlM _) hvalue

/-- The digits of an identifier are its own. -/
theorem ofHexDigits?_hexDigits (u : Uuid) : ofHexDigits? u.hexDigits = some u := by
  have hlt : u.bits.toNat < 16 ^ 32 := u.bits.isLt
  rw [ofHexDigits?, if_pos u.length_hexDigits, hexDigits, foldlM_digitsOnto, Nat.zero_mul,
    Nat.zero_add, Nat.mod_eq_of_lt hlt]
  show some (⟨BitVec.ofNat 128 u.bits.toNat⟩ : Uuid) = some u
  rw [BitVec.ofNat_toNat, BitVec.setWidth_eq]

/-! ### The grouped form -/

/-- A text of the length of all digits is split where the hyphens go. -/
theorem exists_groups {ds : List Char} (h : ds.length = 32) :
    ∃ a b c d e : List Char, ds = a ++ (b ++ (c ++ (d ++ e))) ∧ a.length = 8 ∧ b.length = 4 ∧
      c.length = 4 ∧ d.length = 4 ∧ e.length = 12 := by
  refine ⟨ds.take 8, (ds.drop 8).take 4, (ds.drop 12).take 4, (ds.drop 16).take 4, ds.drop 20, ?_,
    ?_⟩
  · have hdrop (n : Nat) : (ds.drop n).take 4 ++ ds.drop (n + 4) = ds.drop n := by
      rw [← List.drop_drop, List.take_append_drop]
    rw [hdrop 16, hdrop 12, hdrop 8, List.take_append_drop]
  · simp [h]

theorem length_group {ds : List Char} (h : ds.length = 32) : (group ds).length = 36 := by
  simp [group, h]

/-- Hyphens are taken out where they were put in. -/
theorem ofGrouped?_group {ds : List Char} (h : ds.length = 32) :
    ofGrouped? (group ds) = ofHexDigits? ds := by
  obtain ⟨a, b, c, d, e, rfl, ha, hb, hc, hd, he⟩ := exists_groups h
  have hgroup : group (a ++ (b ++ (c ++ (d ++ e)))) =
      a ++ '-' :: (b ++ '-' :: (c ++ '-' :: (d ++ '-' :: e))) := by
    simp [group, List.drop_append, List.drop_eq_nil_of_le, ha, hb, hc, hd]
  rw [hgroup]
  simp [ofGrouped?, List.drop_append, List.drop_eq_nil_of_le, ha, hb, hc, hd, he]

/-- An identifier is read back from its text. -/
theorem parse?_toString (u : Uuid) : parse? u.toString = some u := by
  have hlength := length_group u.length_hexDigits
  rw [parse?, toString, String.toList_ofList]
  rw [if_neg (by omega), if_pos hlength, ofGrouped?_group u.length_hexDigits,
    ofHexDigits?_hexDigits]

end Chronicle.Uuid
