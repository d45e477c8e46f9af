/-
Chronicle/Proofs/Json/RoundTrip.lean

What is printed is read back as the same tree.

A scanner gives back what it read and the rest, so each lemma here is about a
printed text with any `rest` behind it.  Numerals are the only texts that do not
end by themselves: digits could go on in the rest.  `Stops rest` excludes that, and
it holds of everything that a tree is followed by, of a comma, a closing bracket
or brace, and of the end.

The steps that a reader needs are bounded by the length of the text
(`Tree.reads`), so the fuel of `Tree.read?` is enough.

Main result: `Tree.read?_render`, and what it says of codecs
(`Codec.RoundTrips.deserialize`).
-/
import Chronicle.Codec
import Chronicle.Json.Printer
import Mathlib.Data.List.Basic

namespace Chronicle

namespace Json

/-! ### Digits -/

/-- The text does not begin with a digit. -/
def NoDigit (cs : List Char) : Prop := ∀ c ∈ cs.head?, digit? c = none

theorem digit?_digitChar : ∀ d : Fin 10, digit? (digitChar d) = some d := by decide

/-- Digits are read up to the first character that is none. -/
theorem digits_map (ds : List (Fin 10)) {rest : List Char} (hrest : NoDigit rest) :
    digits (ds.map digitChar ++ rest) = (ds, rest) := by
  induction ds with
  | nil =>
    rcases rest with _ | ⟨c, cs⟩
    · rfl
    · show digits (c :: cs) = _
      rw [digits, hrest c rfl]
  | cons d ds ih =>
    show digits (digitChar d :: (ds.map digitChar ++ rest)) = _
    rw [digits, digit?_digitChar, ih]

theorem digitChar_ofNat {c : Char} (h : c.isDigit = true) :
    digitChar (Fin.ofNat 10 (c.toNat - 48)) = c := by
  have hbounds : 48 ≤ c.toNat ∧ c.toNat ≤ 57 := by
    simpa [Char.isDigit, UInt32.le_iff_toNat_le] using h
  have hmod : (c.toNat - 48) % 10 = c.toNat - 48 := Nat.mod_eq_of_lt (by omega)
  show Char.ofNat (48 + (c.toNat - 48) % 10) = c
  rw [hmod, Nat.add_sub_cancel' hbounds.1, Char.ofNat_toNat]

theorem decimalDigits_eq (n : Nat) : decimalDigits n = (Decimal.digitsOf n).map digitChar := by
  unfold decimalDigits Decimal.digitsOf
  rw [List.map_map]
  calc Nat.toDigits 10 n = (Nat.toDigits 10 n).map id := (List.map_id _).symm
    _ = _ := List.map_congr_left fun c hc =>
      (digitChar_ofNat (Nat.isDigit_of_mem_toDigits (by decide) (by decide) hc)).symm

/-- The digits of a number of more than one digit. -/
theorem digitsOf_of_le {n : Nat} (h : 10 ≤ n) :
    Decimal.digitsOf n = Decimal.digitsOf (n / 10) ++ Decimal.digitsOf (n % 10) := by
  unfold Decimal.digitsOf
  rw [Nat.toDigits_of_base_le (by decide) h,
    Nat.toDigits_of_lt_base (Nat.mod_lt n (by decide)), List.map_append]

theorem digitsOf_of_lt : ∀ n < 10, Decimal.digitsOf n = [Fin.ofNat 10 n] := by decide

theorem ofDigits_append (ds ds' : List (Fin 10)) :
    ofDigits (ds ++ ds') = ds'.foldl (fun n d => n * 10 + d.val) (ofDigits ds) := by
  unfold ofDigits
  rw [List.foldl_append]

theorem ofDigits_digitsOf (n : Nat) : ofDigits (Decimal.digitsOf n) = n := by
  induction n using Nat.strongRecOn with
  | _ n ih =>
    by_cases h : n < 10
    · rw [digitsOf_of_lt n h]
      show 0 * 10 + n % 10 = n
      omega
    · rw [digitsOf_of_le (by omega), ofDigits_append, ih (n / 10) (by omega),
        digitsOf_of_lt (n % 10) (by omega)]
      show n / 10 * 10 + n % 10 % 10 = n
      omega

/-- A number is not written with a zero in front. -/
theorem digitsOf_cons (n : Nat) :
    ∃ d ds, Decimal.digitsOf n = d :: ds ∧ (d.val = 0 → ds = []) := by
  induction n using Nat.strongRecOn with
  | _ n ih =>
    by_cases h : n < 10
    · exact ⟨_, [], digitsOf_of_lt n h, fun _ => rfl⟩
    · obtain ⟨d, ds, hds, hzero⟩ := ih (n / 10) (by omega)
      refine ⟨d, ds ++ Decimal.digitsOf (n % 10), ?_, fun hd => ?_⟩
      · rw [digitsOf_of_le (by omega), hds, List.cons_append]
      · -- a first digit of zero would be all there is, and so the number less than ten
        have hvalue := ofDigits_digitsOf (n / 10)
        rw [hds, hzero hd] at hvalue
        have hnought : n / 10 = d.val := by
          rw [← hvalue]
          exact Nat.zero_add _
        omega

/-! ### Numerals -/

theorem readWhole_decimalDigits (n : Nat) {rest : List Char} (hrest : NoDigit rest) :
    readWhole (decimalDigits n ++ rest) = some (n, rest) := by
  obtain ⟨d, ds, hds, hzero⟩ := digitsOf_cons n
  have hvalue := ofDigits_digitsOf n
  rw [hds] at hvalue
  unfold readWhole
  rw [decimalDigits_eq, digits_map _ hrest, hds]
  show (if d.val = 0 ∧ ds ≠ [] then none else some (ofDigits (d :: ds), rest)) = _
  rw [if_neg fun h => h.2 (hzero h.1), hvalue]

/-- The text behind a numeral does not go on with it. -/
def Stops (cs : List Char) : Prop :=
  ∀ c ∈ cs.head?, digit? c = none ∧ c ≠ '.' ∧ c ≠ 'e' ∧ c ≠ 'E'

theorem Stops.noDigit {cs : List Char} (h : Stops cs) : NoDigit cs := fun c hc => (h c hc).1

theorem readExponentDigits_decimalDigits (negative : Bool) (n : Nat) {rest : List Char}
    (hrest : NoDigit rest) :
    readExponentDigits negative (decimalDigits n ++ rest) =
      some (some (if negative then -(n : Int) else n), rest) := by
  obtain ⟨d, ds, hds, -⟩ := digitsOf_cons n
  have hvalue := ofDigits_digitsOf n
  unfold readExponentDigits
  rw [decimalDigits_eq, digits_map _ hrest]
  rw [hds] at hvalue ⊢
  dsimp only
  rw [hvalue]

theorem readExponent_exponentText (e : Option Int) {rest : List Char} (hrest : Stops rest) :
    readExponent (exponentText e ++ rest) = some (e, rest) := by
  rcases e with _ | e
  · show readExponent rest = _
    rcases rest with _ | ⟨c, cs⟩
    · rfl
    · obtain ⟨-, -, he, hE⟩ := hrest c rfl
      exact if_neg (not_or.2 ⟨he, hE⟩)
  · by_cases hneg : e < 0
    · show readExponent
        ('e' :: (if e < 0 then '-' else '+') :: (decimalDigits e.natAbs ++ rest)) = _
      rw [if_pos hneg]
      show readExponentDigits true (decimalDigits e.natAbs ++ rest) = _
      rw [readExponentDigits_decimalDigits true _ hrest.noDigit, if_pos rfl]
      have habs : -(e.natAbs : Int) = e := by omega
      rw [habs]
    · show readExponent
        ('e' :: (if e < 0 then '-' else '+') :: (decimalDigits e.natAbs ++ rest)) = _
      rw [if_neg hneg]
      show readExponentDigits false (decimalDigits e.natAbs ++ rest) = _
      rw [readExponentDigits_decimalDigits false _ hrest.noDigit, if_neg (by decide)]
      have habs : (e.natAbs : Int) = e := by omega
      rw [habs]

/-- The fraction of a numeral as it is written. -/
def fractionText (ds : List (Fin 10)) : List Char :=
  if ds.isEmpty then [] else '.' :: ds.map digitChar

theorem noDigit_exponentText (e : Option Int) {rest : List Char} (hrest : Stops rest) :
    NoDigit (exponentText e ++ rest) := by
  rcases e with _ | e
  · exact hrest.noDigit
  · rintro c ⟨⟩
    decide

theorem readFraction_fractionText (ds : List (Fin 10)) {e : Option Int} {rest : List Char}
    (hrest : Stops rest) :
    readFraction (fractionText ds ++ (exponentText e ++ rest)) =
      some (ds, exponentText e ++ rest) := by
  rcases ds with _ | ⟨d, ds⟩
  · show readFraction (exponentText e ++ rest) = _
    rcases e with _ | e
    · rcases rest with _ | ⟨c, cs⟩
      · rfl
      · show readFraction (c :: cs) = _
        unfold readFraction
        split
        · rename_i heq
          cases heq
          exact absurd rfl (hrest '.' rfl).2.1
        · rfl
    · rfl
  · have hpoint : fractionText (d :: ds) ++ (exponentText e ++ rest) =
        '.' :: ((d :: ds).map digitChar ++ (exponentText e ++ rest)) := rfl
    rw [hpoint, readFraction, digits_map _ (noDigit_exponentText e hrest)]

theorem readUnsigned_print (n : Numeral) {rest : List Char} (hrest : Stops rest) :
    readUnsigned n.negative
      (decimalDigits n.whole ++ (fractionText n.fraction ++ (exponentText n.exponent ++ rest))) =
        some (n, rest) := by
  have hdigits : NoDigit (fractionText n.fraction ++ (exponentText n.exponent ++ rest)) := by
    rcases n.fraction with _ | ⟨d, ds⟩
    · exact noDigit_exponentText n.exponent hrest
    · rintro c ⟨⟩
      decide
  unfold readUnsigned
  rw [readWhole_decimalDigits _ hdigits]
  show (readFraction _ >>= fun x => _) = _
  rw [readFraction_fractionText _ hrest]
  show (readExponent _ >>= fun x => _) = _
  rw [readExponent_exponentText _ hrest]
  rfl

theorem Numeral.print_append (n : Numeral) (rest : List Char) :
    n.print ++ rest = (if n.negative then ['-'] else []) ++
      (decimalDigits n.whole ++
        (fractionText n.fraction ++ (exponentText n.exponent ++ rest))) := by
  simp only [Numeral.print, fractionText, List.append_assoc]

/-- The characters that trees other than numerals begin with, and those that close
arrays and objects. -/
def marks : List Char := ['n', 't', 'f', '"', '[', ']', '\x7b', '\x7d']

theorem digitChar_not_mark : ∀ d : Fin 10, isBlank (digitChar d) = false ∧ digitChar d ∉ marks := by
  decide

/-- A numeral begins with its sign or a digit. -/
theorem Numeral.print_append_cons (n : Numeral) (rest : List Char) :
    ∃ c cs, n.print ++ rest = c :: cs ∧ isBlank c = false ∧ c ∉ marks := by
  obtain ⟨d, ds, hds, -⟩ := digitsOf_cons n.whole
  rw [n.print_append, decimalDigits_eq, hds]
  rcases n.negative with _ | _
  · exact ⟨digitChar d, _, rfl, digitChar_not_mark d⟩
  · exact ⟨'-', _, rfl, by decide, by decide⟩

theorem digitChar_ne_minus : ∀ d : Fin 10, digitChar d ≠ '-' := by decide

theorem readNumeral_print (n : Numeral) {rest : List Char} (hrest : Stops rest) :
    readNumeral (n.print ++ rest) = some (n, rest) := by
  have hread := readUnsigned_print n hrest
  rw [n.print_append]
  rcases hneg : n.negative with _ | _
  · rw [hneg] at hread
    obtain ⟨d, ds, hds, -⟩ := digitsOf_cons n.whole
    rw [decimalDigits_eq, hds] at hread ⊢
    show readNumeral (digitChar d :: _) = _
    unfold readNumeral
    split
    · rename_i heq
      exact absurd (List.cons.inj heq).1 (digitChar_ne_minus d)
    · exact hread
  · rw [hneg] at hread
    exact hread

/-! ### String literals -/

theorem hexValue?_hexDigit : ∀ n < 16, hexValue? (hexDigit n) = some n := by decide

/-- A code unit that is no half of a pair stands for its character. -/
theorem joinPieces_unit {n : Nat} (h : n < 0x20) (ps : List Piece) :
    joinPieces (.unit n :: ps) = (joinPieces ps).map (Char.ofNat n :: ·) := by
  -- surrogates are far above the control characters
  have hhigh : isHighSurrogate n = false := by
    unfold isHighSurrogate
    rw [Bool.and_eq_false_iff]
    exact .inl (decide_eq_false (by omega))
  have hlow : isLowSurrogate n = false := by
    unfold isLowSurrogate
    rw [Bool.and_eq_false_iff]
    exact .inl (decide_eq_false (by omega))
  rcases ps with _ | ⟨p, ps⟩
  · simp [joinPieces, hhigh, hlow]
  · cases p with
    | char c => simp [joinPieces, hhigh, hlow]
    | unit m => simp [joinPieces, hhigh, hlow]

theorem readPieces_short {e c : Char} (hunescape : unescape? e = some c) (hu : e ≠ 'u')
    (rest : List Char) :
    readPieces ('\\' :: e :: rest) = (readPieces rest).map fun x => (.char c :: x.1, x.2) := by
  rw [readPieces.eq_4 _ _ (by rintro _ _ _ _ _ rfl; exact absurd rfl hu), hunescape]
  rcases readPieces rest with _ | x <;> rfl

theorem readPieces_code {n : Nat} (h : n < 0x20) (rest : List Char) :
    readPieces ('\\' :: 'u' :: '0' :: '0' :: hexDigit (n / 16) :: hexDigit (n % 16) :: rest) =
      (readPieces rest).map fun x => (.unit n :: x.1, x.2) := by
  rw [readPieces, hexValue?_hexDigit (n / 16) (by omega), hexValue?_hexDigit (n % 16) (by omega)]
  have hvalue : ((0 * 16 + 0) * 16 + n / 16) * 16 + n % 16 = n := by omega
  rcases readPieces rest with _ | x
  · rfl
  · show some (Piece.unit (((0 * 16 + 0) * 16 + n / 16) * 16 + n % 16) :: x.1, x.2) = _
    rw [hvalue]
    rfl

theorem readPieces_plain {c : Char} (hquote : c ≠ '"') (hbackslash : c ≠ '\\')
    (hcontrol : ¬c.toNat < 0x20) (rest : List Char) :
    readPieces (c :: rest) = (readPieces rest).map fun x => (.char c :: x.1, x.2) := by
  rw [readPieces.eq_5 c rest hquote (fun _ _ _ _ _ h => absurd h hbackslash)
    (fun _ _ h => absurd h hbackslash), if_neg (not_or.2 ⟨hcontrol, hbackslash⟩)]
  rcases readPieces rest with _ | x <;> rfl

/-- One character is read as one piece, which stands for the character. -/
theorem readPieces_escape (c : Char) (rest : List Char) :
    ∃ p, (∀ ps, joinPieces (p :: ps) = (joinPieces ps).map (c :: ·)) ∧
      readPieces (escape c ++ rest) = (readPieces rest).map fun x => (p :: x.1, x.2) := by
  have hchar : ∀ ps, joinPieces (.char c :: ps) = (joinPieces ps).map (c :: ·) := fun _ => rfl
  unfold escape
  -- the seven characters that have a letter of their own
  iterate 7
    split
    · subst_vars
      exact ⟨_, hchar, readPieces_short rfl (by decide) rest⟩
  -- other control characters are written by their code, all the rest as they are
  split
  · rename_i hcontrol
    refine ⟨.unit c.toNat, fun ps => ?_, readPieces_code hcontrol rest⟩
    rw [joinPieces_unit hcontrol, Char.ofNat_toNat]
  · rename_i hquote hbackslash _ _ _ _ _ hcontrol
    exact ⟨.char c, hchar, readPieces_plain hquote hbackslash hcontrol rest⟩

theorem readPieces_escaped (cs rest : List Char) :
    ∃ ps, readPieces (cs.flatMap escape ++ '"' :: rest) = some (ps, rest) ∧
      joinPieces ps = some cs := by
  induction cs with
  | nil => exact ⟨[], rfl, rfl⟩
  | cons c cs ih =>
    obtain ⟨ps, hread, hjoin⟩ := ih
    obtain ⟨p, hp, hescape⟩ := readPieces_escape c (cs.flatMap escape ++ '"' :: rest)
    refine ⟨p :: ps, ?_, ?_⟩
    · rw [List.flatMap_cons, List.append_assoc, hescape, hread]
      rfl
    · rw [hp, hjoin]
      rfl

/-- A literal is read up to its closing quote; one that stands for no text too. -/
theorem readLiteral_print (s : Literal) (rest : List Char) :
    ∃ cs, Literal.print s ++ rest = '"' :: cs ∧ readLiteral cs = some (s, rest) := by
  rcases s with _ | s
  · exact ⟨_, rfl, rfl⟩
  · refine ⟨s.toList.flatMap escape ++ '"' :: rest, ?_, ?_⟩
    · show '"' :: (s.toList.flatMap escape ++ ['"'] ++ rest) = _
      rw [List.append_assoc]
      rfl
    · obtain ⟨ps, hread, hjoin⟩ := readPieces_escaped s.toList rest
      unfold readLiteral
      rw [hread]
      show some ((joinPieces ps).map String.ofList, rest) = _
      rw [hjoin]
      show some (some (String.ofList s.toList), rest) = _
      rw [String.ofList_toList]

/-! ### Trees -/

/-- A text that begins with something is not skipped. -/
theorem skipBlank_cons {c : Char} (h : isBlank c = false) (cs : List Char) :
    skipBlank (c :: cs) = c :: cs := by
  unfold skipBlank
  rw [List.dropWhile_cons, if_neg (by rw [h]; decide)]

/-- A tree begins with a character that is neither blank nor closes anything. -/
theorem Tree.print_append_cons (t : Tree) (rest : List Char) :
    ∃ c cs, t.print ++ rest = c :: cs ∧ isBlank c = false ∧ c ≠ ']' ∧ c ≠ '\x7d' := by
  cases t with
  | null => exact ⟨'n', _, rfl, by decide⟩
  | bool b =>
    cases b with
    | true => exact ⟨'t', _, rfl, by decide⟩
    | false => exact ⟨'f', _, rfl, by decide⟩
  | number n =>
    obtain ⟨c, cs, hprint, hblank, hmark⟩ := n.print_append_cons rest
    refine ⟨c, cs, hprint, hblank, ?_, ?_⟩
    · rintro rfl
      exact hmark (by decide)
    · rintro rfl
      exact hmark (by decide)
  | string s =>
    obtain ⟨cs, hprint, -⟩ := readLiteral_print s rest
    exact ⟨'"', cs, hprint, by decide⟩
  | array items =>
    cases items with
    | nil => exact ⟨'[', _, rfl, by decide⟩
    | cons t ts => exact ⟨'[', _, rfl, by decide⟩
  | object members =>
    cases members with
    | nil => exact ⟨'\x7b', _, rfl, by decide⟩
    | cons m ms => exact ⟨'\x7b', _, rfl, by decide⟩

theorem stops_comma (cs : List Char) : Stops (',' :: cs) := by
  rintro c ⟨⟩
  decide

theorem stops_bracket (cs : List Char) : Stops (']' :: cs) := by
  rintro c ⟨⟩
  decide

theorem stops_brace (cs : List Char) : Stops ('\x7d' :: cs) := by
  rintro c ⟨⟩
  decide

theorem stops_nil : Stops [] := by
  rintro c ⟨⟩

theorem stops_printItems (ts : List Tree) (rest : List Char) : Stops (printItems ts ++ rest) := by
  cases ts with
  | nil => exact stops_bracket rest
  | cons t ts => exact stops_comma _

theorem stops_printMembers (ms : List (Literal × Tree)) (rest : List Char) :
    Stops (printMembers ms ++ rest) := by
  cases ms with
  | nil => exact stops_brace rest
  | cons m ms => exact stops_comma _

/-- A printed tree is read back, with as many steps as it has characters. -/
def Reads (t : Tree) : Prop :=
  ∀ fuel rest, t.print.length ≤ fuel → Stops rest →
    readTree fuel (t.print ++ rest) = some (t, rest)

/-- Likewise for items up to the closing bracket. -/
def ReadsItems (t : Tree) (ts : List Tree) : Prop :=
  ∀ fuel rest, t.print.length + (printItems ts).length ≤ fuel →
    readItems fuel (t.print ++ (printItems ts ++ rest)) = some (t :: ts, rest)

/-- Likewise for members up to the closing brace. -/
def ReadsMembers (k : Literal) (t : Tree) (ms : List (Literal × Tree)) : Prop :=
  ∀ fuel rest, t.print.length + (printMembers ms).length < fuel →
    readMembers fuel (Literal.print k ++ (':' :: (t.print ++ (printMembers ms ++ rest)))) =
      some ((k, t) :: ms, rest)

/-- No tree is printed as nothing, so there is always a first step. -/
theorem reads_of_succ {t : Tree}
    (h : ∀ fuel rest, t.print.length ≤ fuel + 1 → Stops rest →
      readTree (fuel + 1) (t.print ++ rest) = some (t, rest)) : Reads t := by
  intro fuel rest hfuel hrest
  rcases fuel with _ | fuel
  · obtain ⟨c, cs, hprint, -⟩ := t.print_append_cons []
    rw [List.append_nil] at hprint
    rw [hprint] at hfuel
    cases hfuel
  · exact h fuel rest hfuel hrest

/-- A tree that is read in one step, whatever follows. -/
theorem reads_word {t : Tree}
    (h : ∀ fuel rest, readTree (fuel + 1) (t.print ++ rest) = some (t, rest)) : Reads t :=
  reads_of_succ fun fuel rest _ _ => h fuel rest

theorem reads_number (n : Numeral) : Reads (.number n) := by
  apply reads_of_succ
  intro fuel rest _ hrest
  obtain ⟨c, cs, hprint, hblank, hmark⟩ := n.print_append_cons rest
  show readTree (fuel + 1) (n.print ++ rest) = _
  rw [readTree, hprint, skipBlank_cons hblank]
  split
  -- no other kind of tree begins like this
  iterate 6
    rename_i heq
    rw [(List.cons.inj heq).1] at hmark
    exact absurd (by decide) hmark
  rw [← hprint, readNumeral_print n hrest]
  rfl

theorem reads_string (s : Literal) : Reads (.string s) := by
  apply reads_of_succ
  intro fuel rest _ _
  obtain ⟨cs, hprint, hread⟩ := readLiteral_print s rest
  show readTree (fuel + 1) (Literal.print s ++ rest) = _
  rw [readTree, hprint, skipBlank_cons (by decide)]
  show (readLiteral cs >>= fun x => _) = _
  rw [hread]
  rfl

theorem readsItems_nil {t : Tree} (ht : Reads t) : ReadsItems t [] := by
  intro fuel rest hfuel
  rcases fuel with _ | fuel
  · simp [printItems] at hfuel
  · have hlength : t.print.length ≤ fuel := by
      simp [printItems] at hfuel
      exact hfuel
    rw [readItems, ht fuel _ hlength (stops_printItems [] rest)]
    rfl

theorem readsItems_cons {t u : Tree} {ts : List Tree} (ht : Reads t) (hts : ReadsItems u ts) :
    ReadsItems t (u :: ts) := by
  intro fuel rest hfuel
  have hcomma : printItems (u :: ts) ++ rest = ',' :: (u.print ++ (printItems ts ++ rest)) := by
    rw [printItems, List.cons_append, List.append_assoc]
  have hlength : (printItems (u :: ts)).length = u.print.length + (printItems ts).length + 1 := by
    rw [printItems, List.length_cons, List.length_append]
  rcases fuel with _ | fuel
  · omega
  · rw [readItems, ht fuel _ (by omega) (stops_printItems (u :: ts) rest), hcomma]
    show (readItems fuel (u.print ++ (printItems ts ++ rest)) >>= fun x => _) = _
    rw [hts fuel rest (by omega)]
    rfl

theorem reads_array {t : Tree} {ts : List Tree} (hts : ReadsItems t ts) :
    Reads (.array (t :: ts)) := by
  apply reads_of_succ
  intro fuel rest hfuel _
  have hbracket : (Tree.array (t :: ts)).print ++ rest =
      '[' :: (t.print ++ (printItems ts ++ rest)) := by
    rw [Tree.print, List.cons_append, List.append_assoc]
  have hlength : (Tree.array (t :: ts)).print.length =
      t.print.length + (printItems ts).length + 1 := by
    rw [Tree.print, List.length_cons, List.length_append]
  -- the bracket pays for the step that opens the array
  have hread := hts fuel rest (by omega)
  obtain ⟨c, cs, hprint, hblank, hclose, -⟩ := t.print_append_cons (printItems ts ++ rest)
  rw [hprint] at hread
  rw [hbracket, hprint, readTree, skipBlank_cons (by decide)]
  simp only [skipBlank_cons hblank]
  split
  · rename_i heq
    exact absurd (List.cons.inj heq).1 hclose
  · rw [hread]
    rfl

/-- A key with its colon, and then its tree. -/
theorem readMembers_key (k : Literal) {t : Tree} (ht : Reads t) {fuel : Nat} {rest : List Char}
    (hfuel : t.print.length ≤ fuel) (hrest : Stops rest) :
    readMembers (fuel + 1) (Literal.print k ++ (':' :: (t.print ++ rest))) =
      match skipBlank rest with
      | ',' :: rest => do
        let (ms, rest) ← readMembers fuel rest
        return ((k, t) :: ms, rest)
      | '\x7d' :: rest => return ([(k, t)], rest)
      | _ => none := by
  obtain ⟨cs, hprint, hread⟩ := readLiteral_print k (':' :: (t.print ++ rest))
  rw [hprint, readMembers, skipBlank_cons (by decide)]
  show (readLiteral cs >>= fun x => _) = _
  rw [hread]
  dsimp only [bind, Option.bind]
  rw [skipBlank_cons (by decide)]
  show (readTree fuel (t.print ++ rest) >>= fun x => _) = _
  rw [ht fuel rest hfuel hrest]
  rfl

theorem readsMembers_nil (k : Literal) {t : Tree} (ht : Reads t) : ReadsMembers k t [] := by
  intro fuel rest hfuel
  rcases fuel with _ | fuel
  · exact absurd hfuel (Nat.not_lt_zero _)
  · rw [readMembers_key k ht (by omega) (stops_printMembers [] rest)]
    rfl

theorem readsMembers_cons (k : Literal) {t : Tree} (ht : Reads t) {l : Literal} {u : Tree}
    {ms : List (Literal × Tree)} (hms : ReadsMembers l u ms) :
    ReadsMembers k t ((l, u) :: ms) := by
  intro fuel rest hfuel
  have hcomma : printMembers ((l, u) :: ms) ++ rest =
      ',' :: (Literal.print l ++ (':' :: (u.print ++ (printMembers ms ++ rest)))) := by
    simp only [printMembers, List.cons_append, List.append_assoc]
  have hlength : u.print.length + (printMembers ms).length + 1 <
      (printMembers ((l, u) :: ms)).length := by
    -- the key is at least a quote, and so pays for its step
    obtain ⟨cs, hprint, -⟩ := readLiteral_print l []
    rw [List.append_nil] at hprint
    simp only [printMembers, hprint, List.length_cons, List.length_append]
    omega
  rcases fuel with _ | fuel
  · omega
  · rw [readMembers_key k ht (by omega) (stops_printMembers ((l, u) :: ms) rest), hcomma,
      skipBlank_cons (by decide)]
    show (readMembers fuel (Literal.print l ++ (':' :: (u.print ++ (printMembers ms ++ rest))))
      >>= fun x => _) = _
    rw [hms fuel rest (by omega)]
    rfl

theorem reads_object {k : Literal} {t : Tree} {ms : List (Literal × Tree)}
    (hms : ReadsMembers k t ms) : Reads (.object ((k, t) :: ms)) := by
  apply reads_of_succ
  intro fuel rest hfuel _
  have hbrace : (Tree.object ((k, t) :: ms)).print ++ rest =
      '\x7b' :: (Literal.print k ++ (':' :: (t.print ++ (printMembers ms ++ rest)))) := by
    simp only [Tree.print, List.cons_append, List.append_assoc]
  obtain ⟨cs, hprint, -⟩ :=
    readLiteral_print k (':' :: (t.print ++ (printMembers ms ++ rest)))
  have hlength : t.print.length + (printMembers ms).length + 1 <
      (Tree.object ((k, t) :: ms)).print.length := by
    simp only [Tree.print, List.length_cons, List.length_append]
    omega
  have hread := hms fuel rest (by omega)
  rw [hprint] at hread
  rw [hbrace, hprint, readTree, skipBlank_cons (by decide)]
  have hquote : skipBlank ('"' :: cs) = '"' :: cs := skipBlank_cons (by decide) cs
  simp only [hquote]
  show (readMembers fuel ('"' :: cs) >>= fun x => _) = _
  rw [hread]
  rfl

/-! A tree is read because its items and members are, so the induction is on the
tree together with the lists in it. -/

mutual

theorem Tree.reads : ∀ t : Tree, Reads t
  | .null => reads_word fun _ _ => rfl
  | .bool true => reads_word fun _ _ => rfl
  | .bool false => reads_word fun _ _ => rfl
  | .number n => reads_number n
  | .string s => reads_string s
  | .array [] => reads_word fun _ _ => rfl
  | .array (t :: ts) => reads_array (readsItems t t.reads ts)
  | .object [] => reads_word fun _ _ => rfl
  | .object ((k, t) :: ms) => reads_object (readsMembers k t t.reads ms)

theorem readsItems (t : Tree) (ht : Reads t) : ∀ ts : List Tree, ReadsItems t ts
  | [] => readsItems_nil ht
  | u :: ts => readsItems_cons ht (readsItems u u.reads ts)

theorem readsMembers (k : Literal) (t : Tree) (ht : Reads t) :
    ∀ ms : List (Literal × Tree), ReadsMembers k t ms
  | [] => readsMembers_nil k ht
  | (l, u) :: ms => readsMembers_cons k ht (readsMembers l u u.reads ms)

end

/-- **Round trip.**  The text of a tree is read as the tree. -/
theorem Tree.read?_render (t : Tree) : Tree.read? t.render = some t := by
  have hread : Tree.readFirst? t.print = some (t, []) := by
    -- the reader may take two steps for every character, and needs one
    have h := t.reads (2 * t.print.length + 2) [] (by omega) stops_nil
    rw [List.append_nil] at h
    exact h
  unfold Tree.read? Tree.render
  rw [String.toList_ofList, hread]
  rfl

/-- Trees of the same text are the same. -/
theorem Tree.eq_of_render {t u : Tree} (h : t.render = u.render) : t = u := by
  have hread := Tree.read?_render t
  rw [h, Tree.read?_render] at hread
  exact (Option.some.inj hread).symm

end Json

/-! ### Codecs -/

namespace Codec

variable {α : Type} {c : Codec α} {label text : String} {a : α}

/-- What is written is the text of the tree of the value. -/
theorem serialize_eq_ok : c.serialize label a = .ok text ↔
    ∃ t, c.encode a = .ok t ∧ text = t.render := by
  unfold serialize
  rcases c.encode a with reason | t
  · simp
  · simp [eq_comm]

/-- The text of a tree is read as what its codec makes of the tree. -/
theorem deserialize_render (c : Codec α) (label : String) (t : Json.Tree) :
    c.deserialize label t.render =
      match c.decode t with
      | some a => .ok a
      | none => .error (.serialization label .malformed) := by
  rw [deserialize, Json.Tree.read?_render]
  rfl

/-- A codec that round-trips as to trees does so as to texts. -/
theorem RoundTrips.deserialize (hc : c.RoundTrips) (h : c.serialize label a = .ok text) :
    c.deserialize label text = .ok a := by
  obtain ⟨t, hencode, rfl⟩ := serialize_eq_ok.1 h
  rw [deserialize_render, hc a t hencode]

/-- A codec that writes no null does not write its text. -/
theorem NeverNull.text_ne (hc : c.NeverNull) (h : c.serialize label a = .ok text) :
    text ≠ "null" := by
  obtain ⟨t, hencode, rfl⟩ := serialize_eq_ok.1 h
  intro hnull
  have ht : t = .null := Json.Tree.eq_of_render hnull
  rw [ht] at hencode
  exact hc a hencode

/-- A codec that round-trips and writes no null can be made optional. -/
theorem RoundTrips.deserialize_optional (hc : c.RoundTrips) (hnull : c.NeverNull)
    (h : c.serialize label a = .ok text) :
    c.optional.deserialize label text = .ok (some a) := by
  obtain ⟨t, hencode, rfl⟩ := serialize_eq_ok.1 h
  have hdecode : c.optional.decode t = some (some a) := by
    cases t with
    | null => exact absurd hencode (hnull a)
    | _ =>
      show (c.decode _).map some = _
      rw [hc a _ hencode]
      rfl
  rw [deserialize_render, hdecode]

end Codec

end Chronicle
