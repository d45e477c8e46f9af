/-
Chronicle/Proofs/CommandName.lean

How types of commands are named.

The path of a type has its modules in front of its own identifier and its generic arguments,
which are paths of types themselves, in angle brackets behind it.  The name of the type is
what stands behind the last double colon of the whole text, wherever that is.  If there are
no modules among the arguments, that is the path without its own modules.  Otherwise it
begins with an argument: with the last one in the text, on whatever level, that has modules
(`TypePath.Named`).

Main results: `TypePath.commandName_of_path`, and two types of commands that have one name
(`TypePath.generic_commands_share_name`).
-/
import Chronicle.Bench.Vocabulary
import Chronicle.Domain
import Mathlib.Data.List.Induction
import Mathlib.Data.List.TakeWhile

namespace Chronicle

/-! ### The last double colon -/

section

variable {cs ds name : List Char}

theorem behindLastColons_of_not_mem (h : ':' ∉ cs) : behindLastColons cs = none := by
  induction cs with
  | nil => rfl
  | cons c cs ih =>
    have hc : ¬(c = ':' ∧ cs.head? = some ':') := fun hc => h (hc.1 ▸ List.mem_cons_self)
    rw [behindLastColons, ih fun hmem => h (List.mem_cons_of_mem _ hmem)]
    exact if_neg hc

/-- What stands in front of a double colon does not matter. -/
theorem behindLastColons_append_left (h : behindLastColons ds = some name) (cs : List Char) :
    behindLastColons (cs ++ ds) = some name := by
  induction cs with
  | nil => exact h
  | cons c cs ih => rw [List.cons_append, behindLastColons, ih]

/-- Characters that are no colons belong to the name that they stand behind. -/
theorem behindLastColons_append_right (hds : ':' ∉ ds) (cs : List Char) :
    behindLastColons (cs ++ ds) = (behindLastColons cs).map (· ++ ds) := by
  induction cs with
  | nil => exact behindLastColons_of_not_mem hds
  | cons c cs ih =>
    rw [List.cons_append, behindLastColons, behindLastColons, ih]
    rcases behindLastColons cs with _ | name
    · -- the first two characters are a double colon before and after, or they are not
      cases cs with
      | nil =>
        have hhead : ds.head? ≠ some ':' := fun hhead => hds (List.mem_of_head? hhead)
        simp [hhead]
      | cons c' cs =>
        by_cases hcolons : c = ':' ∧ c' = ':'
        · simp [hcolons]
        · simp [hcolons]
    · rfl

/-- There is no double colon in a name. -/
theorem behindLastColons_name (h : behindLastColons cs = some name) :
    behindLastColons name = none := by
  induction cs with
  | nil => cases h
  | cons c cs ih =>
    rw [behindLastColons] at h
    split at h
    · rename_i name' hname
      cases h
      exact ih hname
    · rename_i hnone
      obtain ⟨-, hname⟩ := Option.ite_none_right_eq_some.1 h
      cases hname
      -- the name is shorter than a text in which there is none
      cases cs with
      | nil => rfl
      | cons c' cs =>
        rw [behindLastColons] at hnone
        split at hnone
        · cases hnone
        · assumption

end

/-! ### Paths of types -/

/-- The characters that have a meaning in the path of a type. -/
def pathMarks : List Char := [':', '<', '>', ',', ' ']

/-- The name of a module or of a type: one character or more, and no marks. -/
structure Identifier where
  chars : List Char
  nonempty : chars ≠ []
  plain : ∀ c ∈ chars, c ∉ pathMarks
  deriving DecidableEq

namespace Identifier

/-- Whether a text is an identifier. -/
def isWellFormed (s : String) : Bool :=
  !s.toList.isEmpty && s.toList.all fun c => !pathMarks.contains c

/-- The identifier that is written like this. -/
def ofString (s : String) (h : isWellFormed s = true) : Identifier where
  chars := s.toList
  nonempty := by
    intro hnil
    rw [isWellFormed, hnil] at h
    cases h
  plain := by
    intro c hc hmark
    have hplain := List.all_eq_true.1 (Bool.and_eq_true_iff.1 h).2 c hc
    rw [List.contains_iff_mem.2 hmark] at hplain
    cases hplain

theorem not_mem {mark : Char} (i : Identifier) (h : mark ∈ pathMarks) : mark ∉ i.chars :=
  fun hmem => i.plain mark hmem h

@[ext] theorem ext {i j : Identifier} (h : i.chars = j.chars) : i = j := by
  cases i
  cases j
  cases h
  rfl

end Identifier

/-- The path of a type: the modules that it is in, its own identifier, and its generic
arguments. -/
inductive TypePath
  | mk (modules : List Identifier) (own : Identifier) (arguments : List TypePath)

namespace TypePath

/-- The modules. -/
def modules : TypePath → List Identifier
  | ⟨modules, _, _⟩ => modules

/-- The identifier of the type itself. -/
def own : TypePath → Identifier
  | ⟨_, own, _⟩ => own

/-- The generic arguments. -/
def arguments : TypePath → List TypePath
  | ⟨_, _, arguments⟩ => arguments

/-- What holds of a path if it holds of its arguments holds of all paths. -/
@[elab_as_elim]
theorem induct {motive : TypePath → Prop}
    (mk : ∀ modules own arguments, (∀ a ∈ arguments, motive a) →
      motive ⟨modules, own, arguments⟩) (t : TypePath) : motive t := by
  refine TypePath.rec (motive_1 := motive) (motive_2 := fun arguments => ∀ a ∈ arguments, motive a)
    mk ?_ ?_ t
  · exact fun a ha => absurd ha List.not_mem_nil
  · exact fun a rest ha hrest => List.forall_mem_cons.2 ⟨ha, hrest⟩

/-- Modules, each one with a double colon behind it. -/
def qualifier (modules : List Identifier) : List Char :=
  modules.flatMap fun m => m.chars ++ [':', ':']

mutual

/-- The text of a path. -/
def chars : TypePath → List Char
  | ⟨modules, own, arguments⟩ => qualifier modules ++ (own.chars ++ angled arguments)

/-- Arguments between angle brackets, if there are any. -/
def angled : List TypePath → List Char
  | [] => []
  | a :: rest => '<' :: (chars a ++ closed rest)

/-- The arguments behind another one, with commas in front of them, and the closing
bracket. -/
def closed : List TypePath → List Char
  | [] => ['>']
  | a :: rest => ',' :: ' ' :: (chars a ++ closed rest)

end

/-- The path as it is written. -/
def text (t : TypePath) : String := String.ofList t.chars

/-- The text without the modules of the type itself. -/
def bare (t : TypePath) : List Char := t.own.chars ++ angled t.arguments

/-- There are no modules in the path or in its arguments. -/
inductive Unqualified : TypePath → Prop
  | mk {own : Identifier} {arguments : List TypePath} : (∀ a ∈ arguments, Unqualified a) →
      Unqualified ⟨[], own, arguments⟩

/-- The path that a type is named by, and what stands behind it: the last path in the text
that has modules, or the whole path if its arguments have none. -/
inductive Named : TypePath → TypePath → List Char → Prop
  | self {modules : List Identifier} {own : Identifier} {arguments : List TypePath} :
      (∀ a ∈ arguments, a.Unqualified) →
      Named ⟨modules, own, arguments⟩ ⟨modules, own, arguments⟩ []
  | argument {modules : List Identifier} {own : Identifier} {before behind : List TypePath}
      {a q : TypePath} {rest : List Char} : ¬a.Unqualified → (∀ b ∈ behind, b.Unqualified) →
      Named a q rest → Named ⟨modules, own, before ++ a :: behind⟩ q (rest ++ closed behind)

section

variable {t q a : TypePath} {modules : List Identifier} {arguments before behind : List TypePath}
  {rest : List Char}

/-! ### Colons -/

theorem chars_eq (t : TypePath) : t.chars = qualifier t.modules ++ t.bare := by
  cases t
  rw [chars]
  rfl

theorem colon_not_mem_closed (h : ∀ a ∈ arguments, ':' ∉ a.chars) : ':' ∉ closed arguments := by
  induction arguments with
  | nil => decide
  | cons a rest ih =>
    obtain ⟨ha, hrest⟩ := List.forall_mem_cons.1 h
    simp [closed, ha, ih hrest]

theorem colon_not_mem_bare (h : ∀ a ∈ t.arguments, ':' ∉ a.chars) : ':' ∉ t.bare := by
  have hown : ':' ∉ t.own.chars := t.own.not_mem (by decide)
  rcases harguments : t.arguments with _ | ⟨a, rest⟩
  · simp [bare, harguments, angled, hown]
  · rw [harguments] at h
    obtain ⟨ha, hrest⟩ := List.forall_mem_cons.1 h
    simp [bare, harguments, angled, hown, ha, colon_not_mem_closed hrest]

theorem Unqualified.of_mem_arguments (h : t.Unqualified) : ∀ a ∈ t.arguments, a.Unqualified := by
  cases h with
  | mk harguments => exact harguments

/-- Without modules there are no colons. -/
theorem Unqualified.colon_not_mem (h : t.Unqualified) : ':' ∉ t.chars := by
  induction h with
  | mk _ ih =>
    rw [chars_eq]
    exact colon_not_mem_bare ih

theorem behindLastColons_qualifier (h : modules ≠ []) :
    behindLastColons (qualifier modules) = some [] := by
  obtain ⟨front, last, rfl⟩ := (List.eq_nil_or_concat modules).resolve_left h
  rw [qualifier, List.concat_eq_append, List.flatMap_append, List.flatMap_singleton]
  exact behindLastColons_append_left (behindLastColons_append_left rfl _) _

/-! ### Names -/

theorem exists_closed_append (before : List TypePath) (a : TypePath) (behind : List TypePath) :
    ∃ front, closed (before ++ a :: behind) = front ++ (a.chars ++ closed behind) := by
  induction before with
  | nil => exact ⟨[',', ' '], by rw [List.nil_append, closed]; rfl⟩
  | cons b before ih =>
    obtain ⟨front, hfront⟩ := ih
    refine ⟨',' :: ' ' :: (b.chars ++ front), ?_⟩
    rw [List.cons_append, closed, hfront]
    simp only [List.cons_append, List.append_assoc]

/-- Behind an argument there are only those that follow it. -/
theorem exists_angled_append (before : List TypePath) (a : TypePath) (behind : List TypePath) :
    ∃ front, angled (before ++ a :: behind) = front ++ (a.chars ++ closed behind) := by
  cases before with
  | nil => exact ⟨['<'], by rw [List.nil_append, angled]; rfl⟩
  | cons b before =>
    obtain ⟨front, hfront⟩ := exists_closed_append before a behind
    refine ⟨'<' :: (b.chars ++ front), ?_⟩
    rw [List.cons_append, angled, hfront]
    simp only [List.cons_append, List.append_assoc]

/-- The name begins where the modules of the last path with modules end. -/
theorem behindLastColons_chars (h : t.Named q rest) (hqualified : ¬t.Unqualified) :
    behindLastColons t.chars = some (q.bare ++ rest) := by
  induction h with
  | @self modules own arguments harguments =>
    have hmodules : modules ≠ [] := by
      rintro rfl
      exact hqualified ⟨harguments⟩
    have hbare : ':' ∉ bare ⟨modules, own, arguments⟩ :=
      colon_not_mem_bare fun a ha => (harguments a ha).colon_not_mem
    rw [chars_eq, behindLastColons_append_right hbare]
    show (behindLastColons (qualifier modules)).map _ = _
    rw [behindLastColons_qualifier hmodules, List.append_nil]
    rfl
  | @argument modules own before behind a q rest ha hbehind hnamed ih =>
    have hclosed : ':' ∉ closed behind :=
      colon_not_mem_closed fun b hb => (hbehind b hb).colon_not_mem
    obtain ⟨front, hfront⟩ := exists_angled_append before a behind
    have hname : behindLastColons (a.chars ++ closed behind) =
        some (q.bare ++ (rest ++ closed behind)) := by
      rw [behindLastColons_append_right hclosed, ih ha, Option.map_some, List.append_assoc]
    rw [chars, hfront]
    exact behindLastColons_append_left (behindLastColons_append_left
      (behindLastColons_append_left hname _) _) _

/-- Of the paths that have modules, or have them in their arguments, one is the last. -/
theorem exists_last_qualified (h : ¬∀ a ∈ arguments, a.Unqualified) :
    ∃ before a behind, arguments = before ++ a :: behind ∧ ¬a.Unqualified ∧
      ∀ b ∈ behind, b.Unqualified := by
  induction arguments using List.reverseRecOn with
  | nil => exact absurd nofun h
  | append_singleton others last ih =>
    by_cases hlast : last.Unqualified
    · -- the last argument is none of them, and so comes behind the one that is found
      have hsingle : ∀ a ∈ [last], a.Unqualified := List.forall_mem_singleton.2 hlast
      have hothers : ¬∀ a ∈ others, a.Unqualified := fun hothers =>
        h (List.forall_mem_append.2 ⟨hothers, hsingle⟩)
      obtain ⟨before, a, behind, rfl, ha, hbehind⟩ := ih hothers
      refine ⟨before, a, behind ++ [last], ?_, ha, List.forall_mem_append.2 ⟨hbehind, hsingle⟩⟩
      rw [List.append_assoc, List.cons_append]
    · exact ⟨others, last, [], rfl, hlast, nofun⟩

theorem exists_named (t : TypePath) : ∃ q rest, t.Named q rest := by
  induction t using induct with
  | mk modules own arguments ih =>
    by_cases h : ∀ a ∈ arguments, a.Unqualified
    · exact ⟨_, _, .self h⟩
    · obtain ⟨before, a, behind, rfl, ha, hbehind⟩ := exists_last_qualified h
      obtain ⟨q, rest, hnamed⟩ := ih a (List.mem_append_right _ List.mem_cons_self)
      exact ⟨q, rest ++ closed behind, .argument ha hbehind hnamed⟩

/-- A path has no double colon in it if and only if it has no modules anywhere. -/
theorem behindLastColons_chars_eq_none : behindLastColons t.chars = none ↔ t.Unqualified := by
  refine ⟨fun hnone => ?_, fun h => behindLastColons_of_not_mem h.colon_not_mem⟩
  obtain ⟨q, rest, hnamed⟩ := t.exists_named
  by_contra hqualified
  rw [behindLastColons_chars hnamed hqualified] at hnone
  cases hnone

theorem unqualified_text (h : t.Named q rest) :
    unqualified t.text = String.ofList (q.bare ++ rest) := by
  rw [unqualified, text, String.toList_ofList]
  by_cases ht : t.Unqualified
  · rw [behindLastColons_chars_eq_none.2 ht]
    cases h with
    | self harguments =>
      cases ht
      rw [chars_eq, List.append_nil]
      rfl
    | argument ha =>
      exact absurd (ht.of_mem_arguments _ (List.mem_append_right _ List.mem_cons_self)) ha
  · rw [behindLastColons_chars h ht]

/-- Only the modules of the type itself are left out if there are no others. -/
theorem unqualified_text_eq_bare_iff :
    unqualified t.text = String.ofList t.bare ↔ ∀ a ∈ t.arguments, a.Unqualified := by
  obtain ⟨modules, own, arguments⟩ := t
  constructor
  · intro hname
    by_contra harguments
    have hqualified : ¬Unqualified ⟨modules, own, arguments⟩ := fun h => harguments h.of_mem_arguments
    obtain ⟨q, rest, hnamed⟩ := exists_named ⟨modules, own, arguments⟩
    rw [unqualified_text hnamed, String.ofList_inj] at hname
    -- there is no double colon in the name, but there is one in the arguments
    have hnone : behindLastColons (chars ⟨[], own, arguments⟩) = none := by
      show behindLastColons (bare ⟨modules, own, arguments⟩) = none
      rw [← hname]
      exact behindLastColons_name (behindLastColons_chars hnamed hqualified)
    exact harguments (behindLastColons_chars_eq_none.1 hnone).of_mem_arguments
  · intro harguments
    have hself : Named ⟨modules, own, arguments⟩ ⟨modules, own, arguments⟩ [] := .self harguments
    rw [unqualified_text hself, List.append_nil]

/-- The identifier ends where the arguments begin. -/
theorem takeWhile_bare (t : TypePath) : t.bare.takeWhile (· ≠ '<') = t.own.chars := by
  have hown : ∀ c ∈ t.own.chars, decide (c ≠ '<') = true := by
    intro c hc
    rw [decide_eq_true_eq]
    rintro rfl
    exact t.own.not_mem (by decide) hc
  have harguments : (angled t.arguments).takeWhile (· ≠ '<') = [] := by
    cases t.arguments with
    | nil => rfl
    | cons a rest => rw [angled]; rfl
  rw [bare, List.takeWhile_append_of_pos hown, harguments, List.append_nil]

theorem own_eq_of_bare_eq {t' : TypePath} (h : t.bare = t'.bare) : t.own = t'.own := by
  apply Identifier.ext
  rw [← takeWhile_bare, h, takeWhile_bare]

end

/-! ### Types of commands -/

/-- **Names of commands.**  Take a type of commands with the path of a type as its path.

* Its name is what stands behind the modules of the path that it is named by: that is the
  last one in the text with modules, even if it is an argument.
* So its own modules are all that is left out if and only if there are none in its
  arguments.
* Types of commands without modules in their arguments that have different identifiers of
  their own have different names. -/
theorem commandName_of_path {D : Domain} {c : D.CommandType} {t : TypePath}
    (h : D.commandPath c = t.text) :
    (∃ q rest, t.Named q rest ∧ D.commandName c = String.ofList (q.bare ++ rest)) ∧
      (D.commandName c = String.ofList (t.own.chars ++ angled t.arguments) ↔
        ∀ a ∈ t.arguments, a.Unqualified) ∧
      ∀ (c' : D.CommandType) (t' : TypePath), D.commandPath c' = t'.text →
        (∀ a ∈ t.arguments, a.Unqualified) → (∀ a ∈ t'.arguments, a.Unqualified) →
        t.own ≠ t'.own → D.commandName c ≠ D.commandName c' := by
  rw [Domain.commandName, h]
  refine ⟨?_, unqualified_text_eq_bare_iff, ?_⟩
  · obtain ⟨q, rest, hnamed⟩ := t.exists_named
    exact ⟨q, rest, hnamed, unqualified_text hnamed⟩
  · intro c' t' h' harguments harguments' hown hnames
    rw [Domain.commandName, h', unqualified_text_eq_bare_iff.2 harguments,
      unqualified_text_eq_bare_iff.2 harguments', String.ofList_inj] at hnames
    exact hown (own_eq_of_bare_eq hnames)

/-- The path of a type of the sample vocabulary with one argument. -/
def samplePath (own : Identifier) (argument : TypePath) : TypePath :=
  ⟨[.ofString "oracle_driver" rfl, .ofString "domain" rfl], own, [argument]⟩

/-- The identifier of a generic type of commands. -/
def wrapped : Identifier := .ofString "Wrapped" rfl

/-- The identifier of another one. -/
def boxed : Identifier := .ofString "Boxed" rfl

/-- An argument without modules. -/
def byteArgument : TypePath := ⟨[], .ofString "u8" rfl, []⟩

/-- An argument with modules. -/
def counterArgument : TypePath :=
  ⟨[.ofString "oracle_driver" rfl, .ofString "domain" rfl],
    .ofString "Counter" rfl, []⟩

/-- The sample vocabulary with generic types of commands. -/
def genericCommands : Domain :=
  { Bench.vocabulary with
    commandPath := fun c : Bench.CommandType =>
      match c with
      | .opening => (samplePath wrapped counterArgument).text
      | .add => (samplePath boxed counterArgument).text
      | .tag => (samplePath wrapped byteArgument).text
      | .orphan => (samplePath boxed byteArgument).text }

/-- Without modules in the argument the name is the path without its own modules, and it is
not that of another type with the same argument. -/
theorem byte_commands_named :
    genericCommands.commandPath Bench.CommandType.tag = "oracle_driver::domain::Wrapped<u8>" ∧
      genericCommands.commandName Bench.CommandType.tag = "Wrapped<u8>" ∧
      genericCommands.commandName Bench.CommandType.tag ≠
        genericCommands.commandName Bench.CommandType.orphan := by
  have hbyte : byteArgument.Unqualified := ⟨nofun⟩
  have harguments : ∀ a ∈ [byteArgument], a.Unqualified := fun a ha =>
    List.mem_singleton.1 ha ▸ hbyte
  obtain ⟨-, hname, hdistinct⟩ := commandName_of_path (D := genericCommands)
    (c := Bench.CommandType.tag) (t := samplePath wrapped byteArgument) rfl
  refine ⟨by decide +kernel, (hname.2 harguments).trans (by decide +kernel), ?_⟩
  exact hdistinct Bench.CommandType.orphan (samplePath boxed byteArgument) rfl harguments
    harguments (by decide)

/-- With modules in the argument neither name has anything of the type's own identifier, and
two types have the same name. -/
theorem generic_commands_share_name :
    genericCommands.commandPath Bench.CommandType.opening =
        "oracle_driver::domain::Wrapped<oracle_driver::domain::Counter>" ∧
      genericCommands.commandPath Bench.CommandType.add =
        "oracle_driver::domain::Boxed<oracle_driver::domain::Counter>" ∧
      wrapped ≠ boxed ∧
      genericCommands.commandName Bench.CommandType.opening = "Counter>" ∧
      genericCommands.commandName Bench.CommandType.add = "Counter>" ∧
      ¬wrapped.chars <+: (genericCommands.commandName Bench.CommandType.opening).toList := by
  decide +kernel

end TypePath

end Chronicle
