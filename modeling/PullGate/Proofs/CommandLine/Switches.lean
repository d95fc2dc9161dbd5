import PullGate.CommandLine.Arguments
import PullGate.Proofs.Validation.Member

/-! Arguments without a switch.  The arguments of a run stay those of one when all texts of a switch
are taken out, and then ask for the same but for what the switch had set. -/

namespace PullGate.CommandLine

variable {switch : Switch}

/-- The switch for a choice on the approval. -/
def Switch.ofChoice : Bool → Switch
  | true => .approve
  | false => .noApprove

/-! ### Taking a switch out -/

/-- Words without those of a switch; `value` says that a value of it comes next. -/
def Word.without (switch : Switch) : (value : Bool) → List Word → List Word
  | _, [] => []
  | _, .separator :: words => .separator :: without switch false words
  | true, _ :: words => without switch false words
  | false, .plain other :: words =>
    if other = switch then without switch switch.takesValue words
    else .plain other :: without switch false words
  | false, .assigned other value :: words =>
    if other = switch then without switch false words
    else .assigned other value :: without switch false words
  | false, word :: words => word :: without switch false words

namespace Arguments

/-- Texts without those of a switch, up to any separator; `value` says that a value of it comes
next. -/
def withoutFrom (switch : Switch) (value : Bool) : List Text → List Text
  | [] => []
  | t :: texts =>
    if t = Word.separatorText then t :: texts
    else if value then withoutFrom switch false texts
    else match Word.ofText t with
      | .ok (.plain other) =>
        if other = switch then withoutFrom switch switch.takesValue texts
        else t :: withoutFrom switch false texts
      | .ok (.assigned other _) =>
        if other = switch then withoutFrom switch false texts
        else t :: withoutFrom switch false texts
      | _ => t :: withoutFrom switch false texts

/-- Arguments without the texts of a switch and its values, however it is spelled. -/
def without (switch : Switch) (texts : List Text) : List Text := withoutFrom switch false texts

example : without .project ["--project", "key", "a.json", "--repo=slug", "--proj=other", "--json"] =
    ["a.json", "--repo=slug", "--json"] := by decide +kernel

/-- What is asked for, apart from what a switch sets. -/
def clear (switch : Switch) (a : Arguments) : Arguments :=
  match switch with
  | .help => a
  | .approve => { a with approve := a.approve.filter (· = false) }
  | .noApprove => { a with approve := a.approve.filter (· = true) }
  | .project => { a with project := none }
  | .repo => { a with repo := none }
  | .json => { a with json := false }

end Arguments

/-! ### Words -/

namespace Word

theorem without_operands (texts : List Text) :
    without switch false (texts.map .operand) = texts.map .operand := by
  induction texts with
  | nil => rfl
  | cons t texts ih => exact congrArg (Word.operand t :: ·) ih

theorem without_subset (value : Bool) (words : List Word) :
    without switch value words ⊆ words := by
  fun_induction without switch value words
  case case1 => exact List.Subset.refl _
  case case3 ih => exact List.subset_cons_of_subset _ ih
  case case4 ih => exact List.subset_cons_of_subset _ ih
  case case6 ih => exact List.subset_cons_of_subset _ ih
  all_goals
    next ih => exact List.cons_subset_cons _ ih

theorem ofSwitch_ne_separator (value : Option Text) : ofSwitch switch value ≠ .separator := by
  cases value <;> simp [ofSwitch]

theorem ofOther_ne_separator (t : Text) : ofOther t ≠ .separator := by
  unfold ofOther
  split <;> simp

/-- No text has the form of the separator but the separator itself. -/
theorem ofText_ne_separator (t : Text) : ofText t ≠ .ok .separator := by
  have hlong : ofLong t ≠ .ok .separator := by
    unfold ofLong
    dsimp only
    split
    · simpa using ofOther_ne_separator t
    · simpa using ofSwitch_ne_separator _
    · simp
  unfold ofText
  split
  · simp
  · split
    · simp
    · dsimp only
      split
      · simp
      split
      · exact hlong
      split
      · simp
      · simpa using ofOther_ne_separator _
  · simp

theorem ofTexts_cons_eq_ok_iff {t : Text} {texts : List Text} {words : List Word} :
    ofTexts (t :: texts) = .ok words ↔
      (t = separatorText ∧ words = .separator :: texts.map .operand) ∨
      t ≠ separatorText ∧ ∃ word rest, ofText t = .ok word ∧ ofTexts texts = .ok rest ∧
        words = word :: rest := by
  rw [ofTexts]
  by_cases h : t = separatorText
  · simp [h, eq_comm]
  · simp only [h, if_false, Except.bind_eq_ok_iff, pure, Except.pure, Except.ok.injEq, false_and,
      false_or, ne_eq, not_false_eq_true, true_and]
    simp [eq_comm]

/-- The words of the remaining texts are the remaining words. -/
theorem ofTexts_withoutFrom {value : Bool} {texts : List Text} {words : List Word}
    (h : ofTexts texts = .ok words) :
    ofTexts (Arguments.withoutFrom switch value texts) = .ok (without switch value words) := by
  induction texts generalizing value words with
  | nil =>
    obtain rfl := Except.ok.inj h
    rfl
  | cons t texts ih =>
    rcases ofTexts_cons_eq_ok_iff.mp h with ⟨rfl, rfl⟩ | ⟨ht, word, rest, hword, hrest, rfl⟩
    · rw [Arguments.withoutFrom, if_pos rfl, h, without, without_operands]
    · have hkept : ofTexts (t :: Arguments.withoutFrom switch false texts) =
          .ok (word :: without switch false rest) :=
        ofTexts_cons_eq_ok_iff.mpr (.inr ⟨ht, word, _, hword, ih hrest, rfl⟩)
      have hseparator : word ≠ .separator := by
        rintro rfl
        exact ofText_ne_separator t hword
      rw [Arguments.withoutFrom, if_neg ht, hword]
      cases value with
      | true =>
        rw [if_pos rfl, ih hrest]
        cases word <;> first | rfl | exact absurd rfl hseparator
      | false =>
        rw [if_neg Bool.false_ne_true]
        cases word with
        | plain other =>
          simp only [without]
          split
          · exact ih hrest
          · exact hkept
        | assigned other value =>
          simp only [without]
          split
          · exact ih hrest
          · exact hkept
        | separator => exact absurd rfl hseparator
        | operand | unknown | joined => exact hkept

end Word

/-! ### What the words ask for -/

namespace Arguments

variable {a b r : Arguments} {extra : List Text} {path t : Text} {words : List Word} {value : Bool}

theorem choose_eq_ok_iff :
    a.choose value = .ok b ↔ a.approve ≠ some !value ∧ b = { a with approve := some value } := by
  unfold choose
  dsimp only
  split
  · simp [*]
  · simp [*, eq_comm]

theorem assign_eq_ok_iff : a.assign switch t = .ok b ↔
    (switch = .project ∧ b = { a with project := some t }) ∨
      switch = .repo ∧ b = { a with repo := some t } := by
  cases switch <;> simp [assign, eq_comm]

/-- What words make of arguments when each of them has its place: one operand is the path, and the
others set what they stand for. -/
inductive Yields (path : Text) : Arguments → List Word → Arguments → Prop
  | nil {a : Arguments} (h : a.path = some path) : Yields path a [] a
  | operand {a r : Arguments} {t : Text} {words : List Word} (h : a.path = none)
    (hwords : Word.separator ∉ words.head?)
    (hnext : Yields path { a with path := some t } words r) :
    Yields path a (.operand t :: words) r
  | operandSeparator {a r : Arguments} {t : Text} {words : List Word} (h : a.path = none)
    (hnext : Yields path { a with path := some t } words r) :
    Yields path a (.operand t :: .separator :: words) r
  | separatorOperand {a r : Arguments} {t : Text} {words : List Word} (h : a.path = none)
    (hnext : Yields path { a with path := some t } words r) :
    Yields path a (.separator :: .operand t :: words) r
  | choice {a b r : Arguments} {value : Bool} {words : List Word} (h : a.choose value = .ok b)
    (hnext : Yields path b words r) : Yields path a (.plain (.ofChoice value) :: words) r
  | json {a r : Arguments} {words : List Word}
    (hnext : Yields path { a with json := true } words r) :
    Yields path a (.plain .json :: words) r
  | value {a b r : Arguments} {switch : Switch} {t : Text} {words : List Word}
    (h : a.assign switch t = .ok b) (hnext : Yields path b words r) :
    Yields path a (.plain switch :: .operand t :: words) r
  | assigned {a b r : Arguments} {switch : Switch} {t : Text} {words : List Word}
    (h : a.assign switch t = .ok b) (hnext : Yields path b words r) :
    Yields path a (.assigned switch t :: words) r

theorem readTail_ne_run (t : Text) : readTail t ≠ .ok (.run path a) := by
  fun_induction readTail t <;> simp_all

/-- Words are only read in full if each has its place. -/
theorem yields_of_readWords (h : readWords a extra words = .ok (.run path r)) :
    extra = [] ∧ Yields path a words r := by
  fun_induction readWords a extra words
  case case1 a extra =>
    unfold finish at h
    split at h
    · cases h
    · next hpath =>
      split at h
      · next hextra =>
        obtain ⟨rfl, rfl⟩ := Request.run.inj (Except.ok.inj h)
        exact ⟨List.isEmpty_iff.mp hextra, .nil hpath⟩
      · cases h
  case case2 hpath ih =>
    exact ⟨(ih h).1, .operandSeparator (Option.isNone_iff_eq_none.mp hpath) (ih h).2⟩
  case case4 hpath ih =>
    exact ⟨(ih h).1, .separatorOperand (Option.isNone_iff_eq_none.mp hpath) (ih h).2⟩
  case case6 hwords hpath ih =>
    refine ⟨(ih h).1, .operand (Option.isNone_iff_eq_none.mp hpath) ?_ (ih h).2⟩
    intro hhead
    obtain ⟨rest, hrest⟩ := List.head?_eq_some_iff.mp hhead
    exact hwords rest hrest
  case case10 => exact absurd h (readTail_ne_run _)
  case case11 => cases h
  case case12 ih =>
    obtain ⟨b, hb, h⟩ := Except.bind_eq_ok_iff.mp h
    exact ⟨(ih b h).1, .choice hb (ih b h).2⟩
  case case13 ih =>
    obtain ⟨b, hb, h⟩ := Except.bind_eq_ok_iff.mp h
    exact ⟨(ih b h).1, .choice hb (ih b h).2⟩
  case case14 ih => exact ⟨(ih h).1, .json (ih h).2⟩
  case case15 ih =>
    obtain ⟨b, hb, h⟩ := Except.bind_eq_ok_iff.mp h
    exact ⟨(ih b h).1, .value hb (ih b h).2⟩
  case case16 => cases h
  case case17 ih =>
    obtain ⟨b, hb, h⟩ := Except.bind_eq_ok_iff.mp h
    exact ⟨(ih b h).1, .assigned hb (ih b h).2⟩
  all_goals
    -- a text without a place stays without one
    next ih => exact absurd (ih h).1 (by simp)

theorem Yields.readWords_eq (h : Yields path a words r) :
    readWords a [] words = .ok (.run path r) := by
  induction h with
  | nil h => simp [readWords, finish, h]
  | operand h hwords _ ih =>
    rw [readWords]
    · simpa [h] using ih
    · rintro rest rfl
      exact hwords rfl
  | operandSeparator h _ ih => simpa [readWords, h] using ih
  | separatorOperand h _ ih => simpa [readWords, h] using ih
  | @choice _ _ _ value _ h _ ih =>
    cases value
    all_goals simpa [Switch.ofChoice, readWords, h, bind, Except.bind] using ih
  | json _ ih => simpa [readWords] using ih
  | value h _ ih =>
    rcases assign_eq_ok_iff.mp h with ⟨rfl, -⟩ | ⟨rfl, -⟩
    all_goals simpa [readWords, h, bind, Except.bind] using ih
  | assigned h _ ih => simpa [readWords, h, bind, Except.bind] using ih

/-- Behind the path there is no separator, but right behind it. -/
theorem Yields.separator_notMem (h : Yields path a words r) (hpath : a.path ≠ none) :
    Word.separator ∉ words := by
  induction h with
  | nil _ => simp
  | operand h | operandSeparator h | separatorOperand h => exact absurd h hpath
  | choice h _ ih =>
    obtain ⟨-, rfl⟩ := choose_eq_ok_iff.mp h
    simpa using ih hpath
  | json _ ih => simpa using ih hpath
  | value h _ ih | assigned h _ ih =>
    rcases assign_eq_ok_iff.mp h with ⟨-, rfl⟩ | ⟨-, rfl⟩
    all_goals simpa using ih hpath

/-! ### What is asked for without a switch -/

@[simp] theorem path_clear (switch : Switch) (a : Arguments) : (a.clear switch).path = a.path := by
  cases switch <;> rfl

theorem clear_setPath (switch : Switch) (a : Arguments) (t : Text) :
    clear switch { a with path := some t } = { a.clear switch with path := some t } := by
  cases switch <;> rfl

/-- A choice that is taken out. -/
theorem clear_of_choose (h : a.choose value = .ok b) :
    b.clear (.ofChoice value) = a.clear (.ofChoice value) := by
  obtain ⟨hother, rfl⟩ := choose_eq_ok_iff.mp h
  obtain ⟨path, approve, project, repo, json⟩ := a
  cases value <;> rcases approve with _ | _ | _ <;> simp_all [clear, Switch.ofChoice, Option.filter]

/-- A choice that stays. -/
theorem choose_clear (h : a.choose value = .ok b)
    (hswitch : .ofChoice value ≠ switch) :
    (a.clear switch).choose value = .ok (b.clear switch) := by
  obtain ⟨hother, rfl⟩ := choose_eq_ok_iff.mp h
  refine choose_eq_ok_iff.mpr ?_
  obtain ⟨path, approve, project, repo, json⟩ := a
  cases switch <;> cases value <;> rcases approve with _ | _ | _ <;>
    simp_all [clear, Switch.ofChoice, Option.filter]

theorem takesValue_ofChoice (value : Bool) : (Switch.ofChoice value).takesValue = false := by
  cases value <;> rfl

theorem clear_of_assign (h : a.assign switch t = .ok b) : b.clear switch = a.clear switch := by
  rcases assign_eq_ok_iff.mp h with ⟨rfl, rfl⟩ | ⟨rfl, rfl⟩
  all_goals rfl

theorem takesValue_of_assign (h : a.assign switch t = .ok b) : switch.takesValue = true := by
  rcases assign_eq_ok_iff.mp h with ⟨rfl, -⟩ | ⟨rfl, -⟩
  all_goals rfl

theorem clear_setJson (hswitch : Switch.json ≠ switch) (a : Arguments) :
    clear switch { a with json := true } = { a.clear switch with json := true } := by
  cases switch <;> first | rfl | exact absurd rfl hswitch

theorem assign_clear {other : Switch} (h : a.assign other t = .ok b) (hswitch : other ≠ switch) :
    (a.clear switch).assign other t = .ok (b.clear switch) := by
  rcases assign_eq_ok_iff.mp h with ⟨rfl, rfl⟩ | ⟨rfl, rfl⟩
  all_goals cases switch <;> first | rfl | exact absurd rfl hswitch

theorem Yields.without (h : Yields path a words r) (switch : Switch) :
    Yields path (a.clear switch) (Word.without switch false words) (r.clear switch) := by
  induction h with
  | nil h => exact .nil (by simpa using h)
  | operand h hwords hnext ih =>
    rw [clear_setPath] at ih
    refine .operand (by simpa using h) ?_ ih
    intro hhead
    have hmem := Word.without_subset false _ (List.mem_of_head? hhead)
    exact hnext.separator_notMem (by simp) hmem
  | operandSeparator h _ ih =>
    rw [clear_setPath] at ih
    exact .operandSeparator (by simpa using h) ih
  | separatorOperand h _ ih =>
    rw [clear_setPath] at ih
    exact .separatorOperand (by simpa using h) ih
  | @choice a b r value words h _ ih =>
    by_cases hswitch : .ofChoice value = switch
    · subst hswitch
      rw [clear_of_choose h] at ih
      rw [Word.without, if_pos rfl, takesValue_ofChoice]
      exact ih
    · rw [Word.without, if_neg hswitch]
      exact .choice (choose_clear h hswitch) ih
  | json _ ih =>
    by_cases hswitch : Switch.json = switch
    · subst hswitch
      exact ih
    · rw [Word.without, if_neg hswitch]
      exact .json (clear_setJson hswitch _ ▸ ih)
  | @value a b r other t words h _ ih =>
    by_cases hswitch : other = switch
    · subst hswitch
      rw [clear_of_assign h] at ih
      rw [Word.without, if_pos rfl, takesValue_of_assign h]
      exact ih
    · rw [Word.without, if_neg hswitch]
      exact .value (assign_clear h hswitch) ih
  | @assigned a b r other t words h _ ih =>
    by_cases hswitch : other = switch
    · subst hswitch
      rw [clear_of_assign h] at ih
      rw [Word.without, if_pos rfl]
      exact ih
    · rw [Word.without, if_neg hswitch]
      exact .assigned (assign_clear h hswitch) ih

/-- The arguments of a run are those of one without a switch, too, and ask for the same but for
what the switch had set. -/
theorem read_without {texts : List Text} (h : read texts = .ok (.run path r)) (switch : Switch) :
    read (without switch texts) = .ok (.run path (r.clear switch)) := by
  obtain ⟨words, hwords, h⟩ := Except.bind_eq_ok_iff.mp h
  obtain ⟨-, hyields⟩ := yields_of_readWords h
  have hwithout := (hyields.without switch).readWords_eq
  refine Except.bind_eq_ok_iff.mpr ⟨_, Word.ofTexts_withoutFrom hwords, ?_⟩
  cases switch <;> exact hwithout

/-- Nothing is left to be taken out. -/
theorem without_without (switch : Switch) (texts : List Text) :
    without switch (without switch texts) = without switch texts := by
  have h : ∀ value texts, withoutFrom switch false (withoutFrom switch value texts) =
      withoutFrom switch value texts := by
    intro value texts
    fun_induction withoutFrom switch value texts <;> simp_all [withoutFrom]
  exact h false texts

/-! ### A switch more -/

theorem Yields.setJson (h : Yields path a words r) :
    Yields path { a with json := true } words { r with json := true } := by
  induction h with
  | nil h => exact .nil h
  | operand h hwords _ ih => exact .operand h hwords ih
  | operandSeparator h _ ih => exact .operandSeparator h ih
  | separatorOperand h _ ih => exact .separatorOperand h ih
  | choice h _ ih =>
    obtain ⟨hother, rfl⟩ := choose_eq_ok_iff.mp h
    exact .choice (choose_eq_ok_iff.mpr ⟨hother, rfl⟩) ih
  | json _ ih => exact .json ih
  | value h _ ih =>
    rcases assign_eq_ok_iff.mp h with ⟨rfl, rfl⟩ | ⟨rfl, rfl⟩
    all_goals exact .value rfl ih
  | assigned h _ ih =>
    rcases assign_eq_ok_iff.mp h with ⟨rfl, rfl⟩ | ⟨rfl, rfl⟩
    all_goals exact .assigned rfl ih

theorem ofText_json : Word.ofText "--json" = .ok (.plain .json) := by decide +kernel

/-- A run may always ask for its result as JSON. -/
theorem read_cons_json {texts : List Text} (h : read texts = .ok (.run path r)) :
    read ("--json" :: texts) = .ok (.run path { r with json := true }) := by
  obtain ⟨words, hwords, h⟩ := Except.bind_eq_ok_iff.mp h
  obtain ⟨-, hyields⟩ := yields_of_readWords h
  have hread := (Yields.json hyields.setJson).readWords_eq
  refine Except.bind_eq_ok_iff.mpr ⟨_, ?_, hread⟩
  exact Word.ofTexts_cons_eq_ok_iff.mpr (.inr ⟨by decide, _, _, ofText_json, hwords, rfl⟩)

theorem without_cons_json (texts : List Text) :
    without .json ("--json" :: texts) = without .json texts := by
  rw [without, withoutFrom, if_neg (by decide), if_neg Bool.false_ne_true, ofText_json]
  rfl

end Arguments

end PullGate.CommandLine
