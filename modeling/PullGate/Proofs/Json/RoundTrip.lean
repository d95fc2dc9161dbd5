import PullGate.Proofs.Json.Scalar

/-! Values that are read back.  A value in which every part has a form of its own is read as it was
written: integers are not too long, doubles are canonical, strings are joined, the keys of an object
differ, and arrays and objects are not nested too deep. -/

namespace PullGate.Json

variable {t rest : Text} {fuel depth : Nat} {c : CodePoint} {j : Json}

/-- A value that is read back where so many arrays and objects more may be opened. -/
inductive Faithful : (depth : Nat) → Json → Prop where
  | null {depth : Nat} : Faithful depth .null
  | bool {depth : Nat} (value : Bool) : Faithful depth (.bool value)
  | int {depth : Nat} {n : Int} (h : n.natAbs < 10 ^ digitLimit) : Faithful depth (.int n)
  | double {depth : Nat} {d : Double} (h : d.IsCanonical) : Faithful depth (.double d)
  | string {depth : Nat} {t : Text} (h : t.Joined) : Faithful depth (.string t)
  | array {depth : Nat} {items : List Json} (h : ∀ item ∈ items, Faithful depth item) :
    Faithful (depth + 1) (.array items)
  | object {depth : Nat} {members : List (Text × Json)} (hkeys : (members.map Prod.fst).Nodup)
    (hjoined : ∀ member ∈ members, member.1.Joined)
    (h : ∀ member ∈ members, Faithful depth member.2) : Faithful (depth + 1) (.object members)

/-- An object is read back if its keys differ and its values are. -/
theorem Faithful.ofKeys {depth : Nat} {members : List (Text × Json)} (keys : List Text)
    (hkeys : keys.Nodup) (hunicode : keys.all Text.isUnicode = true)
    (hmembers : members.map Prod.fst = keys) (h : ∀ m ∈ members, Faithful depth m.2) :
    Faithful (depth + 1) (.object members) := by
  refine .object (hmembers ▸ hkeys) (fun m hm => ?_) h
  have hmem : m.1 ∈ keys := hmembers ▸ List.mem_map_of_mem hm
  exact Text.joined_of_isUnicode (List.all_eq_true.mp hunicode m.1 hmem)

/-! ### Blanks and marks -/

theorem skipSpace_of_not (h : isSpace c = false) (t : Text) : skipSpace (c :: t) = c :: t := by
  simp [skipSpace, h]

theorem skipSpace_blank (t : Text) : skipSpace (.scalar ' ' :: t) = skipSpace t := rfl

theorem endsValue_nil : EndsValue [] := fun _ h => by cases h

theorem endsValue_comma (t : Text) : EndsValue (.scalar ',' :: t) := by
  intro c hc
  obtain rfl := Option.some.inj hc
  exact .inl rfl

theorem endsValue_bracket (t : Text) : EndsValue (.scalar ']' :: t) := by
  intro c hc
  obtain rfl := Option.some.inj hc
  exact .inr (.inl rfl)

theorem endsValue_brace (t : Text) : EndsValue (.scalar '\x7d' :: t) := by
  intro c hc
  obtain rfl := Option.some.inj hc
  exact .inr (.inr (.inl rfl))

theorem endsValue_newline (t : Text) : EndsValue (.scalar '\n' :: t) := by
  intro c hc
  obtain rfl := Option.some.inj hc
  exact .inr (.inr (.inr rfl))

/-- A code point with which a number or a word begins. -/
def BeginsScalar (c : CodePoint) : Prop :=
  isSpace c = false ∧ c ≠ .scalar '"' ∧ c ≠ .scalar '[' ∧ c ≠ .scalar '\x7b' ∧ c ≠ .scalar ']' ∧
    c ≠ .scalar '\uFEFF'

instance (c : CodePoint) : Decidable (BeginsScalar c) :=
  inferInstanceAs (Decidable (_ ∧ _ ∧ _ ∧ _ ∧ _ ∧ _))

theorem beginsScalar_of_isDigit (h : c.isDigit = true) : BeginsScalar c := by
  have hne : ∀ d : CodePoint, d.isDigit = false → c ≠ d := by
    rintro d hd rfl
    rw [h] at hd
    cases hd
  refine ⟨?_, hne _ rfl, hne _ rfl, hne _ rfl, hne _ rfl, hne _ rfl⟩
  have h₁ := hne ' ' rfl
  have h₂ := hne '\t' rfl
  have h₃ := hne '\n' rfl
  have h₄ := hne '\r' rfl
  simp [isSpace, h₁, h₂, h₃, h₄]

theorem readValue_of_beginsScalar (h : BeginsScalar c) :
    readValue (fuel + 1) depth (c :: t) = readScalar (c :: t) := by
  obtain ⟨-, hquote, hbracket, hbrace, -⟩ := h
  rw [readValue]
  · exact fun u hu => hquote (List.cons.inj hu).1
  · exact fun u hu => hbracket (List.cons.inj hu).1
  · exact fun u hu => hbrace (List.cons.inj hu).1

theorem head_ofInt (n : Int) : ∃ c t, Text.ofInt n = c :: t ∧ BeginsScalar c := by
  cases n with
  | ofNat n =>
    obtain ⟨c, t, heq, hc⟩ := head_text (wellFormed_integral n)
    rw [text_integral] at heq
    exact ⟨c, t, heq, beginsScalar_of_isDigit hc⟩
  | negSucc n => exact ⟨'-', _, rfl, by decide⟩

theorem head_writeDouble {d : Double} (hd : d.IsCanonical) :
    ∃ c t, writeDouble d = c :: t ∧ BeginsScalar c := by
  cases d with
  | nan => exact ⟨'N', _, rfl, by decide⟩
  | infinite negative =>
    cases negative with
    | true => exact ⟨'-', _, rfl, by decide⟩
    | false => exact ⟨'I', _, rfl, by decide⟩
  | finite negative mantissa exponent =>
    obtain ⟨c, t, heq, hc⟩ := head_text (Double.readMagnitude?_shortest hd).1
    rw [writeDouble_finite, heq]
    cases negative with
    | true => exact ⟨'-', _, rfl, by decide⟩
    | false => exact ⟨c, t, rfl, beginsScalar_of_isDigit hc⟩

/-! ### Values -/

/-- A text is read as a value, whatever comes after it; and it begins with nothing that a reader
would skip, or take for the end of an array. -/
structure ReadsAs (depth : Nat) (text : Text) (j : Json) : Prop where
  head : ∃ c t, text = c :: t ∧ isSpace c = false ∧ c ≠ .scalar ']' ∧ c ≠ .scalar '\uFEFF'
  read : ∀ fuel rest, text.length < fuel → EndsValue rest →
    readValue fuel depth (text ++ rest) = .ok (j, rest)

/-- What is written of a value is read as that value. -/
abbrev ReadsBack (depth : Nat) (j : Json) : Prop := ReadsAs depth (write j) j

theorem ReadsAs.skipSpace_append {text : Text} (h : ReadsAs depth text j) (t : Text) :
    skipSpace (text ++ t) = text ++ t := by
  obtain ⟨c, u, heq, hspace, -⟩ := h.head
  rw [heq, List.cons_append, skipSpace_of_not hspace]

theorem readsBack_scalar (hhead : ∃ c t, write j = c :: t ∧ BeginsScalar c)
    (hread : ∀ rest, EndsValue rest → readScalar (write j ++ rest) = .ok (j, rest)) :
    ReadsBack depth j := by
  obtain ⟨c, t, heq, hc⟩ := hhead
  refine ⟨⟨c, t, heq, hc.1, hc.2.2.2.2⟩, fun fuel rest hfuel hrest => ?_⟩
  have hscalar := hread rest hrest
  cases fuel with
  | zero => cases hfuel
  | succ fuel =>
    rw [heq] at hscalar ⊢
    exact (readValue_of_beginsScalar hc).trans hscalar

theorem writeString_append (t rest : Text) :
    writeString t ++ rest = .scalar '"' :: (t.flatMap escape ++ .scalar '"' :: rest) := by
  simp [writeString, Text.ofString]

theorem readsBack_string (ht : t.Joined) : ReadsBack depth (.string t) := by
  refine ⟨⟨'"', _, by rw [write, writeString, List.cons_append], by decide⟩, ?_⟩
  intro fuel rest hfuel _
  cases fuel with
  | zero => cases hfuel
  | succ fuel =>
    rw [write, writeString_append, readValue, readString_flatMap ht]
    rfl

/-! ### Arrays -/

theorem writeItems_singleton (item : Json) :
    writeItems [item] = write item ++ [.scalar ']'] := by
  rw [writeItems]
  rfl

theorem writeItems_cons_cons (item next : Json) (items : List Json) :
    writeItems (item :: next :: items) =
      write item ++ .scalar ',' :: .scalar ' ' :: writeItems (next :: items) := by
  rw [writeItems]
  exact List.cons_ne_nil _ _

theorem writeItems_cons (item : Json) (items : List Json) :
    ∃ t, writeItems (item :: items) = write item ++ t := by
  cases items with
  | nil => exact ⟨_, writeItems_singleton item⟩
  | cons next items => exact ⟨_, writeItems_cons_cons item next items⟩

theorem ReadsBack.skipSpace_writeItems (h : ReadsBack depth j) (items : List Json) (t : Text) :
    skipSpace (writeItems (j :: items) ++ t) = writeItems (j :: items) ++ t := by
  obtain ⟨u, heq⟩ := writeItems_cons j items
  rw [heq, List.append_assoc, h.skipSpace_append]

theorem readItems_last {u : Text} (hread : readValue fuel depth t = .ok (j, u))
    (hu : skipSpace u = .scalar ']' :: rest) :
    readItems (fuel + 1) depth t = .ok ([j], rest) := by
  rw [readItems]
  simp only [hread, hu]

theorem readItems_next {u v : Text} {items : List Json}
    (hread : readValue fuel depth t = .ok (j, u)) (hu : skipSpace u = .scalar ',' :: v)
    (hrest : readItems fuel depth (skipSpace v) = .ok (items, rest)) :
    readItems (fuel + 1) depth t = .ok (j :: items, rest) := by
  rw [readItems]
  simp only [hread, hu, hrest, Except.map]

theorem readItems_writeItems (item : Json) (items : List Json)
    (h : ∀ j ∈ item :: items, ReadsBack depth j)
    (hfuel : (writeItems (item :: items)).length < fuel) :
    readItems fuel depth (writeItems (item :: items) ++ rest) = .ok (item :: items, rest) := by
  obtain ⟨hitem, hitems⟩ := List.forall_mem_cons.mp h
  obtain ⟨fuel, rfl⟩ : ∃ k, fuel = k + 1 := ⟨fuel - 1, by omega⟩
  induction items generalizing item fuel with
  | nil =>
    rw [writeItems_singleton] at hfuel ⊢
    rw [List.length_append, List.length_singleton] at hfuel
    rw [List.append_assoc]
    exact readItems_last (hitem.read _ _ (by omega) (endsValue_bracket rest)) rfl
  | cons next items ih =>
    rw [writeItems_cons_cons] at hfuel ⊢
    simp only [List.length_append, List.length_cons] at hfuel
    obtain ⟨hnext, hrest⟩ := List.forall_mem_cons.mp hitems
    obtain ⟨fuel, rfl⟩ : ∃ k, fuel = k + 1 := ⟨fuel - 1, by omega⟩
    have hread := ih next hitems hnext hrest fuel (by omega)
    rw [List.append_assoc]
    refine readItems_next (hitem.read _ _ (by omega) (endsValue_comma _)) rfl ?_
    rw [List.append_eq, List.cons_append, skipSpace_blank, hnext.skipSpace_writeItems, hread]

theorem readValue_array {u : Text} {items : List Json} (hu : skipSpace t = u)
    (hhead : u.head? ≠ some (.scalar ']')) (hread : readItems fuel depth u = .ok (items, rest)) :
    readValue (fuel + 1) (depth + 1) (.scalar '[' :: t) = .ok (.array items, rest) := by
  rw [readValue]
  dsimp only
  rw [hu]
  split
  · exact absurd rfl hhead
  · simp only [hread, Except.map]

theorem readsBack_array {items : List Json} (h : ∀ item ∈ items, ReadsBack depth item) :
    ReadsBack (depth + 1) (.array items) := by
  refine ⟨⟨'[', _, by rw [write], by decide⟩, fun fuel rest hfuel _ => ?_⟩
  obtain ⟨fuel, rfl⟩ : ∃ k, fuel = k + 1 := ⟨fuel - 1, by omega⟩
  rw [write] at hfuel ⊢
  rw [List.length_cons] at hfuel
  cases items with
  | nil => rw [writeItems]; rfl
  | cons item items =>
    have hitem := h item (.head items)
    refine readValue_array (hitem.skipSpace_writeItems items rest) ?_
      (readItems_writeItems item items h (Nat.lt_of_succ_lt_succ hfuel))
    obtain ⟨t, ht⟩ := writeItems_cons item items
    obtain ⟨c, u, hc, -, hbracket, -⟩ := hitem.head
    rw [ht, hc]
    simpa using hbracket

/-! ### Objects -/

theorem insert_of_notMem {key : Text} {members : List (Text × Json)}
    (h : key ∉ members.map Prod.fst) (value : Json) :
    insert key value members = members ++ [(key, value)] := by
  induction members with
  | nil => rfl
  | cons member members ih =>
    rw [List.map_cons, List.mem_cons, not_or] at h
    rw [insert, if_neg (Ne.symm h.1), ih h.2]
    rfl

/-- A key that differs from all before it is added at the end. -/
theorem insert_of_nodup {member : Text × Json} {before members : List (Text × Json)}
    (h : ((before ++ member :: members).map Prod.fst).Nodup) :
    insert member.1 member.2 before = before ++ [member] := by
  rw [List.map_append, List.nodup_append] at h
  exact insert_of_notMem (fun hmem => h.2.2 _ hmem _ (.head _) rfl) member.2

theorem writeMembers_singleton (member : Text × Json) :
    writeMembers [member] =
      writeString member.1 ++ .scalar ':' :: .scalar ' ' ::
        (write member.2 ++ [.scalar '\x7d']) := by
  rw [writeMembers]
  simp [Text.ofString]

theorem writeMembers_cons_cons (member next : Text × Json) (members : List (Text × Json)) :
    writeMembers (member :: next :: members) =
      writeString member.1 ++ .scalar ':' :: .scalar ' ' ::
        (write member.2 ++ .scalar ',' :: .scalar ' ' :: writeMembers (next :: members)) := by
  rw [writeMembers]
  · simp
  · exact List.cons_ne_nil _ _

theorem skipSpace_writeMembers (member : Text × Json) (members : List (Text × Json)) (t : Text) :
    skipSpace (writeMembers (member :: members) ++ t) = writeMembers (member :: members) ++ t := by
  cases members with
  | nil => rw [writeMembers_singleton]; rfl
  | cons next members => rw [writeMembers_cons_cons]; rfl

theorem readMembers_last {key text u : Text} {members : List (Text × Json)} (hkey : key.Joined)
    (hvalue : ReadsAs depth text j) (hfuel : text.length < fuel) (hends : EndsValue u)
    (hu : skipSpace u = .scalar '\x7d' :: rest) :
    readMembers (fuel + 1) depth members
        (writeString key ++ .scalar ':' :: .scalar ' ' :: (text ++ u)) =
      .ok (insert key j members, rest) := by
  have hcolon : ∀ v : Text, skipSpace (.scalar ':' :: v) = .scalar ':' :: v := fun _ => rfl
  have hread := hvalue.read fuel u hfuel hends
  rw [writeString_append, readMembers]
  simp only [readString_flatMap hkey, hcolon, skipSpace_blank, hvalue.skipSpace_append, hread, hu]

theorem readMembers_next {key text u v : Text} {members : List (Text × Json)} (hkey : key.Joined)
    (hvalue : ReadsAs depth text j) (hfuel : text.length < fuel) (hends : EndsValue u)
    (hu : skipSpace u = .scalar ',' :: v) :
    readMembers (fuel + 1) depth members
        (writeString key ++ .scalar ':' :: .scalar ' ' :: (text ++ u)) =
      readMembers fuel depth (insert key j members) (skipSpace v) := by
  have hcolon : ∀ v : Text, skipSpace (.scalar ':' :: v) = .scalar ':' :: v := fun _ => rfl
  have hread := hvalue.read fuel u hfuel hends
  rw [writeString_append, readMembers]
  simp only [readString_flatMap hkey, hcolon, skipSpace_blank, hvalue.skipSpace_append, hread, hu]

theorem readMembers_writeMembers (member : Text × Json) (members before : List (Text × Json))
    (h : ∀ m ∈ member :: members, m.1.Joined ∧ ReadsBack depth m.2)
    (hkeys : ((before ++ member :: members).map Prod.fst).Nodup)
    (hfuel : (writeMembers (member :: members)).length < fuel) :
    readMembers fuel depth before (writeMembers (member :: members) ++ rest) =
      .ok (before ++ member :: members, rest) := by
  induction members generalizing member before fuel with
  | nil =>
    have hinsert := insert_of_nodup hkeys
    obtain ⟨hkey, hvalue⟩ := h member (.head _)
    obtain ⟨fuel, rfl⟩ : ∃ k, fuel = k + 1 := ⟨fuel - 1, by omega⟩
    rw [writeMembers_singleton] at hfuel ⊢
    simp only [List.length_append, List.length_cons] at hfuel
    simp only [List.append_assoc, List.cons_append]
    rw [readMembers_last hkey hvalue (by omega) (endsValue_brace _) rfl, hinsert, List.nil_append]
  | cons next members ih =>
    have hinsert := insert_of_nodup hkeys
    obtain ⟨⟨hkey, hvalue⟩, hmembers⟩ := List.forall_mem_cons.mp h
    obtain ⟨fuel, rfl⟩ : ∃ k, fuel = k + 1 := ⟨fuel - 1, by omega⟩
    rw [writeMembers_cons_cons] at hfuel ⊢
    simp only [List.length_append, List.length_cons] at hfuel
    have hsplit : before ++ member :: next :: members = before ++ [member] ++ next :: members := by
      simp
    have hnext : (writeMembers (next :: members)).length < fuel := by omega
    have hread := ih next (before ++ [member]) hmembers (hsplit ▸ hkeys) hnext
    simp only [List.append_assoc, List.cons_append]
    rw [readMembers_next hkey hvalue (by omega) (endsValue_comma _) rfl, skipSpace_blank,
      skipSpace_writeMembers, hinsert, hread, hsplit]

theorem readValue_object {u : Text} {members : List (Text × Json)} (hu : skipSpace t = u)
    (hhead : u.head? ≠ some (.scalar '\x7d'))
    (hread : readMembers fuel depth [] u = .ok (members, rest)) :
    readValue (fuel + 1) (depth + 1) (.scalar '\x7b' :: t) = .ok (.object members, rest) := by
  rw [readValue]
  dsimp only
  rw [hu]
  split
  · exact absurd rfl hhead
  · simp only [hread, Except.map]

theorem head?_writeMembers (member : Text × Json) (members : List (Text × Json)) :
    (writeMembers (member :: members)).head? = some (.scalar '"') := by
  cases members with
  | nil => rw [writeMembers_singleton]; rfl
  | cons next members => rw [writeMembers_cons_cons]; rfl

theorem readsBack_object {members : List (Text × Json)} (hkeys : (members.map Prod.fst).Nodup)
    (h : ∀ m ∈ members, m.1.Joined ∧ ReadsBack depth m.2) :
    ReadsBack (depth + 1) (.object members) := by
  refine ⟨⟨'\x7b', _, by rw [write], by decide⟩, fun fuel rest hfuel _ => ?_⟩
  obtain ⟨fuel, rfl⟩ : ∃ k, fuel = k + 1 := ⟨fuel - 1, by omega⟩
  rw [write] at hfuel ⊢
  rw [List.length_cons] at hfuel
  cases members with
  | nil => rw [writeMembers]; rfl
  | cons member members =>
    refine readValue_object (skipSpace_writeMembers member members rest) ?_
      (readMembers_writeMembers member members [] h hkeys (Nat.lt_of_succ_lt_succ hfuel))
    rw [List.head?_append, head?_writeMembers, Option.some_or]
    decide

/-! ### Documents -/

theorem Faithful.readsBack (h : Faithful depth j) : ReadsBack depth j := by
  induction h with
  | null => exact readsBack_scalar ⟨'n', _, rfl, by decide⟩ fun _ _ => readScalar_null
  | bool value =>
    cases value with
    | true => exact readsBack_scalar ⟨'t', _, rfl, by decide⟩ fun _ _ => readScalar_true
    | false => exact readsBack_scalar ⟨'f', _, rfl, by decide⟩ fun _ _ => readScalar_false
  | @int _ n hn =>
    refine readsBack_scalar ?_ fun rest hrest => ?_
    · rw [write]
      exact head_ofInt n
    · rw [write]
      exact readScalar_ofInt hn hrest
  | double hd =>
    refine readsBack_scalar ?_ fun rest hrest => ?_
    · rw [write]
      exact head_writeDouble hd
    · rw [write]
      exact readScalar_write hd hrest
  | string ht => exact readsBack_string ht
  | array _ ih => exact readsBack_array ih
  | object hkeys hjoined _ ih => exact readsBack_object hkeys fun m hm => ⟨hjoined m hm, ih m hm⟩

/-- A text that is read as a value is a document, also with blank space behind it. -/
theorem ReadsAs.readTo_append {text blank : Text} (h : ReadsAs depth text j)
    (hends : EndsValue blank) (hblank : skipSpace blank = []) :
    readTo depth (text ++ blank) = .ok j := by
  have hread := h.read (2 * (text ++ blank).length + 2) blank (by simp; omega) hends
  unfold readTo
  split
  · next heq =>
    obtain ⟨c, t, hhead, -, -, hmark⟩ := h.head
    rw [hhead] at heq
    exact absurd (List.cons.inj heq).1 hmark
  · simp only [h.skipSpace_append, hread, hblank]

/-- A value whose parts have forms of their own is read back from what is written of it. -/
theorem Faithful.readTo_write (h : Faithful depth j) : readTo depth (write j) = .ok j := by
  have hread := h.readsBack.readTo_append endsValue_nil rfl
  rwa [List.append_nil] at hread

end PullGate.Json
