import PullGate.Proofs.Json.RoundTrip

/-! Values that are read back from several lines.  The ends of lines and the blanks in front of them
are skipped, so a value is read as it is from its indented form, too. -/

namespace PullGate.Json

variable {margin tail t rest : Text} {fuel depth : Nat} {j : Json}

/-! ### Margins -/

/-- The blank space in front of a line is skipped, and the line end before it. -/
theorem skipSpace_line (hmargin : margin.all isSpace = true) (t : Text) :
    skipSpace (.scalar '\n' :: (margin ++ t)) = skipSpace t := by
  have hline : skipSpace (.scalar '\n' :: (margin ++ t)) = skipSpace (margin ++ t) := rfl
  rw [hline, skipSpace, List.dropWhile_append_of_pos (List.all_eq_true.mp hmargin)]
  rfl

theorem all_isSpace_deeper (hmargin : margin.all isSpace = true) :
    (margin ++ ("  " : Text)).all isSpace = true := by
  rw [List.all_append, hmargin]
  rfl

/-! ### Arrays -/

theorem writeItemsAt_singleton (margin : Text) (item : Json) :
    writeItemsAt margin [item] = .scalar '\n' :: (margin ++ writeAt margin item) := by
  rw [writeItemsAt]
  rfl

theorem writeItemsAt_cons_cons (margin : Text) (item next : Json) (items : List Json) :
    writeItemsAt margin (item :: next :: items) = .scalar '\n' ::
      (margin ++ (writeAt margin item ++ .scalar ',' :: writeItemsAt margin (next :: items))) := by
  rw [writeItemsAt]
  · simp
  · exact List.cons_ne_nil _ _

theorem readItems_writeItemsAt (item : Json) (items : List Json)
    (h : ∀ j ∈ item :: items, ReadsAs depth (writeAt margin j) j)
    (hmargin : margin.all isSpace = true) (hends : EndsValue tail)
    (htail : skipSpace tail = .scalar ']' :: rest)
    (hfuel : (writeItemsAt margin (item :: items)).length < fuel) :
    readItems fuel depth (skipSpace (writeItemsAt margin (item :: items) ++ tail)) =
      .ok (item :: items, rest) := by
  obtain ⟨hitem, hitems⟩ := List.forall_mem_cons.mp h
  obtain ⟨fuel, rfl⟩ : ∃ k, fuel = k + 1 := ⟨fuel - 1, by omega⟩
  induction items generalizing item fuel with
  | nil =>
    rw [writeItemsAt_singleton] at hfuel ⊢
    rw [List.length_cons, List.length_append] at hfuel
    rw [List.cons_append, List.append_assoc, skipSpace_line hmargin, hitem.skipSpace_append]
    exact readItems_last (hitem.read _ _ (by omega) hends) htail
  | cons next items ih =>
    rw [writeItemsAt_cons_cons] at hfuel ⊢
    simp only [List.length_append, List.length_cons] at hfuel
    obtain ⟨hnext, hrest⟩ := List.forall_mem_cons.mp hitems
    obtain ⟨fuel, rfl⟩ : ∃ k, fuel = k + 1 := ⟨fuel - 1, by omega⟩
    have hread := ih next hitems hnext hrest fuel (by omega)
    rw [List.cons_append, List.append_assoc, skipSpace_line hmargin, List.append_assoc,
      hitem.skipSpace_append]
    exact readItems_next (hitem.read _ _ (by omega) (endsValue_comma _)) rfl hread

theorem head?_skipSpace_writeItemsAt {item : Json} (items : List Json)
    (h : ReadsAs depth (writeAt margin item) item) (hmargin : margin.all isSpace = true)
    (tail : Text) :
    (skipSpace (writeItemsAt margin (item :: items) ++ tail)).head? ≠ some (.scalar ']') := by
  have hskip : ∃ u, skipSpace (writeItemsAt margin (item :: items) ++ tail) =
      writeAt margin item ++ u := by
    cases items with
    | nil =>
      rw [writeItemsAt_singleton, List.cons_append, List.append_assoc, skipSpace_line hmargin,
        h.skipSpace_append]
      exact ⟨_, rfl⟩
    | cons next items =>
      rw [writeItemsAt_cons_cons, List.cons_append, List.append_assoc, skipSpace_line hmargin,
        List.append_assoc, h.skipSpace_append]
      exact ⟨_, rfl⟩
  obtain ⟨u, hu⟩ := hskip
  obtain ⟨c, v, hc, -, hbracket, -⟩ := h.head
  rw [hu, hc]
  simpa using hbracket

theorem readsAs_arrayAt {items : List Json} (hmargin : margin.all isSpace = true)
    (h : ∀ item ∈ items, ReadsAs depth (writeAt (margin ++ ("  " : Text)) item) item) :
    ReadsAs (depth + 1) (writeAt margin (.array items)) (.array items) := by
  cases items with
  | nil => exact readsBack_array (List.forall_mem_nil _)
  | cons item items =>
    have hdeeper := all_isSpace_deeper hmargin
    have htext : writeAt margin (.array (item :: items)) = .scalar '[' ::
        (writeItemsAt (margin ++ ("  " : Text)) (item :: items) ++
          .scalar '\n' :: (margin ++ [.scalar ']'])) := by
      rw [writeAt]
      · simp [Text.ofString]
      · exact List.cons_ne_nil _ _
    rw [htext]
    refine ⟨⟨'[', _, rfl, by decide⟩, fun fuel rest hfuel _ => ?_⟩
    obtain ⟨fuel, rfl⟩ : ∃ k, fuel = k + 1 := ⟨fuel - 1, by omega⟩
    simp only [List.length_cons, List.length_append] at hfuel
    rw [List.cons_append, List.append_assoc, List.cons_append]
    refine readValue_array rfl (head?_skipSpace_writeItemsAt items (h item (.head _)) hdeeper _)
      (readItems_writeItemsAt item items h hdeeper (endsValue_newline _) ?_ (by omega))
    rw [List.append_assoc, skipSpace_line hmargin]
    rfl

/-! ### Objects -/

theorem writeMembersAt_singleton (margin : Text) (member : Text × Json) :
    writeMembersAt margin [member] = .scalar '\n' :: (margin ++
      (writeString member.1 ++ .scalar ':' :: .scalar ' ' :: writeAt margin member.2)) := by
  rw [writeMembersAt]
  simp

theorem writeMembersAt_cons_cons (margin : Text) (member next : Text × Json)
    (members : List (Text × Json)) :
    writeMembersAt margin (member :: next :: members) = .scalar '\n' :: (margin ++
      (writeString member.1 ++ .scalar ':' :: .scalar ' ' ::
        (writeAt margin member.2 ++ .scalar ',' :: writeMembersAt margin (next :: members)))) := by
  rw [writeMembersAt]
  · simp
  · exact List.cons_ne_nil _ _

theorem skipSpace_writeString (key rest : Text) :
    skipSpace (writeString key ++ rest) = writeString key ++ rest := rfl

theorem readMembers_writeMembersAt (member : Text × Json) (members before : List (Text × Json))
    (h : ∀ m ∈ member :: members, m.1.Joined ∧ ReadsAs depth (writeAt margin m.2) m.2)
    (hkeys : ((before ++ member :: members).map Prod.fst).Nodup)
    (hmargin : margin.all isSpace = true) (hends : EndsValue tail)
    (htail : skipSpace tail = .scalar '\x7d' :: rest)
    (hfuel : (writeMembersAt margin (member :: members)).length < fuel) :
    readMembers fuel depth before
        (skipSpace (writeMembersAt margin (member :: members) ++ tail)) =
      .ok (before ++ member :: members, rest) := by
  induction members generalizing member before fuel with
  | nil =>
    have hinsert := insert_of_nodup hkeys
    obtain ⟨hkey, hvalue⟩ := h member (.head _)
    obtain ⟨fuel, rfl⟩ : ∃ k, fuel = k + 1 := ⟨fuel - 1, by omega⟩
    rw [writeMembersAt_singleton] at hfuel ⊢
    simp only [List.length_append, List.length_cons] at hfuel
    rw [List.cons_append, List.append_assoc, skipSpace_line hmargin, List.append_assoc,
      skipSpace_writeString, List.cons_append, List.cons_append,
      readMembers_last hkey hvalue (by omega) hends htail, hinsert]
  | cons next members ih =>
    have hinsert := insert_of_nodup hkeys
    obtain ⟨⟨hkey, hvalue⟩, hmembers⟩ := List.forall_mem_cons.mp h
    obtain ⟨fuel, rfl⟩ : ∃ k, fuel = k + 1 := ⟨fuel - 1, by omega⟩
    rw [writeMembersAt_cons_cons] at hfuel ⊢
    simp only [List.length_append, List.length_cons] at hfuel
    have hsplit : before ++ member :: next :: members = before ++ [member] ++ next :: members := by
      simp
    have hread := ih next (before ++ [member]) hmembers (hsplit ▸ hkeys)
      (show (writeMembersAt margin (next :: members)).length < fuel by omega)
    rw [List.cons_append, List.append_assoc, skipSpace_line hmargin, List.append_assoc,
      skipSpace_writeString, List.cons_append, List.cons_append, List.append_assoc,
      List.cons_append, readMembers_next hkey hvalue (by omega) (endsValue_comma _) rfl, hinsert,
      hread, hsplit]

theorem head?_skipSpace_writeMembersAt (member : Text × Json) (members : List (Text × Json))
    (hmargin : margin.all isSpace = true) (tail : Text) :
    (skipSpace (writeMembersAt margin (member :: members) ++ tail)).head? =
      some (.scalar '"') := by
  cases members with
  | nil =>
    rw [writeMembersAt_singleton, List.cons_append, List.append_assoc, skipSpace_line hmargin]
    rfl
  | cons next members =>
    rw [writeMembersAt_cons_cons, List.cons_append, List.append_assoc, skipSpace_line hmargin]
    rfl

theorem readsAs_objectAt {members : List (Text × Json)} (hmargin : margin.all isSpace = true)
    (hkeys : (members.map Prod.fst).Nodup)
    (h : ∀ m ∈ members, m.1.Joined ∧ ReadsAs depth (writeAt (margin ++ ("  " : Text)) m.2) m.2) :
    ReadsAs (depth + 1) (writeAt margin (.object members)) (.object members) := by
  cases members with
  | nil => exact readsBack_object hkeys (List.forall_mem_nil _)
  | cons member members =>
    have hdeeper := all_isSpace_deeper hmargin
    have htext : writeAt margin (.object (member :: members)) = .scalar '\x7b' ::
        (writeMembersAt (margin ++ ("  " : Text)) (member :: members) ++
          .scalar '\n' :: (margin ++ [.scalar '\x7d'])) := by
      rw [writeAt]
      · simp [Text.ofString]
      · exact List.cons_ne_nil _ _
    rw [htext]
    refine ⟨⟨'\x7b', _, rfl, by decide⟩, fun fuel rest hfuel _ => ?_⟩
    obtain ⟨fuel, rfl⟩ : ∃ k, fuel = k + 1 := ⟨fuel - 1, by omega⟩
    simp only [List.length_cons, List.length_append] at hfuel
    rw [List.cons_append, List.append_assoc, List.cons_append]
    refine readValue_object rfl ?_ (readMembers_writeMembersAt member members [] h hkeys hdeeper
      (endsValue_newline _) ?_ (by omega))
    · rw [head?_skipSpace_writeMembersAt member members hdeeper]
      decide
    · rw [List.append_assoc, skipSpace_line hmargin]
      rfl

/-! ### Documents -/

theorem Faithful.readsAs_writeAt (h : Faithful depth j) (hmargin : margin.all isSpace = true) :
    ReadsAs depth (writeAt margin j) j := by
  induction h generalizing margin with
  | null => exact Faithful.null.readsBack
  | bool value => exact (Faithful.bool value).readsBack
  | int hn => exact (Faithful.int hn).readsBack
  | double hd => exact (Faithful.double hd).readsBack
  | string ht => exact (Faithful.string ht).readsBack
  | array _ ih =>
    exact readsAs_arrayAt hmargin fun item hitem => ih item hitem (all_isSpace_deeper hmargin)
  | object hkeys hjoined _ ih =>
    exact readsAs_objectAt hmargin hkeys fun m hm =>
      ⟨hjoined m hm, ih m hm (all_isSpace_deeper hmargin)⟩

/-- A value whose parts have forms of their own is read back from its indented form, also with the
end of a line behind it. -/
theorem Faithful.readTo_writeIndented (h : Faithful depth j) :
    readTo depth (writeIndented j ++ ("\n" : Text)) = .ok j :=
  (h.readsAs_writeAt rfl).readTo_append (endsValue_newline _) rfl

end PullGate.Json
