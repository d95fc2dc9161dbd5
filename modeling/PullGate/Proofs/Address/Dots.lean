import PullGate.Http.Url
import PullGate.Proofs.Text.Cut

/-! Dot segments of a path.  A dot stays and two dots go back; a path that goes on behind a front
and never goes back past its own beginning keeps the front, and one without dot segments stays as
it is. -/

namespace PullGate

namespace Url

variable {s t : Text} {done current segments : List Text}

/-! ### Segments -/

def isDot (segment : Text) : Bool := segment = "." || segment = ".."

/-- No segment is one of dots. -/
def DotFree (t : Text) : Prop := ∀ segment ∈ t.split '/', isDot segment = false

instance (t : Text) : Decidable (DotFree t) :=
  inferInstanceAs (Decidable (∀ segment ∈ t.split '/', isDot segment = false))

/-- A walk along the segments, `depth` of them down where it begins, never goes back too far. -/
def stays : (depth : Nat) → List Text → Bool
  | _, [] => true
  | depth, segment :: segments =>
    if segment = "." then stays depth segments
    else if segment = ".." then 0 < depth && stays (depth - 1) segments
    else stays (depth + 1) segments

theorem dotFree_append : DotFree (s ++ CodePoint.scalar '/' :: t) ↔ DotFree s ∧ DotFree t := by
  unfold DotFree
  rw [Text.split_append_sep, List.forall_mem_append]

theorem dropDots_cons {segment : Text} (h : isDot segment = false) :
    dropDots done (segment :: segments) = dropDots (segment :: done) segments := by
  simp only [isDot, Bool.or_eq_false_iff, decide_eq_false_iff_not] at h
  rw [dropDots, if_neg h.1, if_neg h.2]

theorem dropDots_front (h : ∀ segment ∈ segments, isDot segment = false) (more : List Text) :
    dropDots done (segments ++ more) = dropDots (segments.reverse ++ done) more := by
  induction segments generalizing done with
  | nil => rfl
  | cons segment segments ih =>
    obtain ⟨hsegment, hsegments⟩ := List.forall_mem_cons.mp h
    rw [List.cons_append, dropDots_cons hsegment, ih hsegments]
    simp

theorem dropDots_dotFree (h : DotFree t) : dropDots [] (t.split '/') = t.split '/' := by
  have hfront : dropDots [] (t.split '/' ++ []) = dropDots ((t.split '/').reverse ++ []) [] :=
    dropDots_front h []
  rwa [List.append_nil, List.append_nil, dropDots, List.reverse_reverse] at hfront

theorem dropDots_concat {last : Text} (h : isDot last = false) :
    dropDots done (segments ++ [last]) = dropDots done segments ++ [last] := by
  induction segments generalizing done with
  | nil =>
    rw [List.nil_append, dropDots_cons h]
    exact List.reverse_cons
  | cons segment segments ih =>
    simp only [List.cons_append, dropDots]
    split
    · exact ih
    · split
      · exact ih
      · exact ih

/-- A walk that does not go back past its beginning leaves alone what was there before. -/
theorem dropDots_append (h : stays current.length segments = true) :
    dropDots (current ++ done) segments = done.reverse ++ dropDots current segments := by
  induction segments generalizing current with
  | nil => simp [dropDots]
  | cons segment segments ih =>
    unfold stays at h
    unfold dropDots
    split
    · next hdot =>
      rw [if_pos hdot] at h
      exact ih h
    · next hdot =>
      rw [if_neg hdot] at h
      split
      · next hdots =>
        rw [if_pos hdots, Bool.and_eq_true, decide_eq_true_iff] at h
        cases current with
        | nil => exact absurd h.1 (Nat.lt_irrefl 0)
        | cons segment current => exact ih h.2
      · next hdots =>
        rw [if_neg hdots] at h
        have hdeeper : stays (segment :: current).length segments = true := h
        exact ih hdeeper

theorem stays_cons {segment : Text} {depth : Nat} (h : isDot segment = false) :
    stays depth (segment :: segments) = stays (depth + 1) segments := by
  simp only [isDot, Bool.or_eq_false_iff, decide_eq_false_iff_not] at h
  rw [stays, if_neg h.1, if_neg h.2]

theorem stays_dotFree {depth : Nat} (h : ∀ segment ∈ segments, isDot segment = false) :
    stays depth segments = true := by
  induction segments generalizing depth with
  | nil => rfl
  | cons segment segments ih =>
    obtain ⟨hsegment, hsegments⟩ := List.forall_mem_cons.mp h
    rw [stays_cons hsegment]
    exact ih hsegments

theorem stays_append {depth : Nat} {more : List Text} (h : stays depth segments = true)
    (hmore : ∀ segment ∈ more, isDot segment = false) : stays depth (segments ++ more) = true := by
  induction segments generalizing depth with
  | nil => exact stays_dotFree hmore
  | cons segment segments ih =>
    unfold stays at h
    rw [List.cons_append]
    unfold stays
    split at h
    · next hdot =>
      rw [if_pos hdot]
      exact ih h
    · next hdot =>
      rw [if_neg hdot]
      split at h
      · next hdots =>
        rw [Bool.and_eq_true] at h
        rw [if_pos hdots, h.1, ih h.2]
        rfl
      · next hdots =>
        rw [if_neg hdots]
        exact ih h

/-! ### The last segment -/

/-- The last segment is one of dots, behind a slash. -/
def isDotted (t : Text) : Bool :=
  match t.reverse with
  | .scalar '.' :: .scalar '/' :: _ => true
  | .scalar '.' :: .scalar '.' :: .scalar '/' :: _ => true
  | _ => false

theorem isDotted_append {last : Text} (h : CodePoint.scalar '/' ∉ last) (front : Text) :
    isDotted (front ++ CodePoint.scalar '/' :: last) = isDot last := by
  obtain ⟨m, rfl⟩ : ∃ m, last = m.reverse := ⟨last.reverse, by simp⟩
  rw [List.mem_reverse] at h
  unfold isDotted isDot
  rw [List.reverse_append, List.reverse_cons, List.reverse_reverse, List.append_assoc]
  match m, h with
  | [], _ => rfl
  | [x], _ =>
    by_cases hx : x = '.'
    · subst hx
      rfl
    · simp [Text.ofString, hx]
  | [x, y], h =>
    simp only [List.mem_cons, List.not_mem_nil, or_false, not_or] at h
    by_cases hx : x = '.'
    · subst hx
      by_cases hy : y = '.'
      · subst hy
        rfl
      · simp [Text.ofString, hy, Ne.symm h.2]
    · simp [Text.ofString, hx]
  | x :: y :: z :: m, h =>
    have hlong : ∀ u : Text, u.length < 3 → (x :: y :: z :: m).reverse ≠ u := by
      rintro u hu rfl
      rw [List.length_reverse] at hu
      simp only [List.length_cons] at hu
      omega
    simp only [List.mem_cons, not_or] at h
    rw [decide_eq_false (hlong "." (by decide)), decide_eq_false (hlong ".." (by decide))]
    simp [Ne.symm h.2.1, Ne.symm h.2.2.1]

/-- What stands behind the last slash is the last segment. -/
theorem exists_last (t : Text) : ∃ front last segments,
    CodePoint.scalar '/' :: t = front ++ CodePoint.scalar '/' :: last ∧
      CodePoint.scalar '/' ∉ last ∧ t.split '/' = segments ++ [last] := by
  cases hcut : Text.cut? '/' (CodePoint.scalar '/' :: t).reverse with
  | none => exact absurd (List.mem_reverse.mpr (.head _)) (Text.cut?_eq_none.mp hcut)
  | some cut =>
    obtain ⟨heq, hnot⟩ := Text.cut?_eq_some hcut
    have hparts := congrArg List.reverse heq
    rw [List.reverse_reverse, List.reverse_append, List.reverse_cons, List.append_assoc] at hparts
    rw [← List.mem_reverse] at hnot
    have hsplit := congrArg (Text.split '/') hparts
    rw [Text.split_cons_sep, List.singleton_append, Text.split_append_sep,
      Text.split_of_not_mem hnot] at hsplit
    refine ⟨cut.2.reverse, cut.1.reverse, (Text.split '/' cut.2.reverse).tail, hparts, hnot, ?_⟩
    obtain ⟨first, pieces, hpieces⟩ := Text.exists_split '/' cut.2.reverse
    rw [hpieces] at hsplit ⊢
    exact (List.cons.inj hsplit).2

theorem isDotted_last {last : Text} {front : List Text} (h : t.split '/' = front ++ [last]) :
    isDotted (CodePoint.scalar '/' :: t) = isDot last := by
  obtain ⟨before, last', segments, heq, hslash, hsplit⟩ := exists_last t
  rw [h] at hsplit
  obtain ⟨-, hlast⟩ := List.append_inj' hsplit rfl
  rw [heq, isDotted_append hslash, (List.cons.inj hlast).1]

theorem isDotted_front (front t : Text) :
    isDotted (front ++ CodePoint.scalar '/' :: t) = isDotted (CodePoint.scalar '/' :: t) := by
  obtain ⟨before, last, -, heq, hslash, -⟩ := exists_last t
  rw [heq, ← List.append_assoc, isDotted_append hslash, isDotted_append hslash]

theorem not_isDotted (h : DotFree t) : isDotted (CodePoint.scalar '/' :: t) = false := by
  obtain ⟨-, last, segments, -, -, hsplit⟩ := exists_last t
  rw [isDotted_last hsplit]
  exact h last (hsplit ▸ List.mem_append_right _ (.head _))

/-! ### Resolving -/

/-- The path behind a front, without dot segments; it keeps a slash where its last segment was one
of them. -/
def resolve (t : Text) : Text :=
  Text.join "/" (dropDots [] (t.split '/') ++
    if isDotted (CodePoint.scalar '/' :: t) then [[]] else [])

theorem resolved_ne_nil (t : Text) : dropDots [] (t.split '/') ++
    (if isDotted (CodePoint.scalar '/' :: t) then [[]] else []) ≠ [] := by
  obtain ⟨-, last, segments, -, -, hsplit⟩ := exists_last t
  rw [isDotted_last hsplit, hsplit]
  cases hlast : isDot last with
  | false =>
    rw [dropDots_concat hlast]
    simp
  | true => simp

theorem resolve_of_dotFree (h : DotFree t) : resolve t = t := by
  unfold resolve
  rw [dropDots_dotFree h, not_isDotted h]
  simp only [Bool.false_eq_true, if_false, List.append_nil]
  exact Text.join_split '/' t

/-- A path that goes on behind a front keeps the front, if it does not go back past it. -/
theorem removeDots_front {front : Text} (hroot : front.head? = some (.scalar '/'))
    (hfront : DotFree front) (ht : stays 0 (t.split '/') = true) :
    removeDots (front ++ CodePoint.scalar '/' :: t) =
      front ++ CodePoint.scalar '/' :: resolve t := by
  have hsegments : dropDots [] ((front ++ CodePoint.scalar '/' :: t).split '/') =
      front.split '/' ++ dropDots [] (t.split '/') := by
    rw [Text.split_append_sep, dropDots_front hfront, List.append_nil]
    have happend : dropDots ([] ++ (front.split '/').reverse) (t.split '/') =
        (front.split '/').reverse.reverse ++ dropDots [] (t.split '/') := dropDots_append ht
    rwa [List.reverse_reverse] at happend
  cases front with
  | nil => cases hroot
  | cons c front =>
    obtain rfl := Option.some.inj hroot
    have hroots : Text.split '/' (CodePoint.scalar '/' :: front) = [] :: Text.split '/' front :=
      Text.split_cons_sep _ front
    have hsome : Text.split '/' (CodePoint.scalar '/' :: front) ≠ [] := by simp [hroots]
    have hjoin := Text.join_append (s := "/") hsome (resolved_ne_nil t)
    have hresolve : removeDots (CodePoint.scalar '/' :: front ++ CodePoint.scalar '/' :: t) =
        Text.join "/" (Text.split '/' (CodePoint.scalar '/' :: front) ++
          (dropDots [] (t.split '/') ++
            if isDotted (CodePoint.scalar '/' :: t) then [[]] else [])) := by
      unfold removeDots
      rw [hsegments, hroots, ← isDotted_front (CodePoint.scalar '/' :: front) t]
      show Text.join "/" (if isDotted (CodePoint.scalar '/' :: front ++ CodePoint.scalar '/' :: t)
        then [] :: (Text.split '/' front ++ dropDots [] (t.split '/')) ++ [[]]
        else [] :: (Text.split '/' front ++ dropDots [] (t.split '/'))) = _
      split
      · simp
      · simp
    have hself : Text.join "/" (Text.split '/' (CodePoint.scalar '/' :: front)) =
        CodePoint.scalar '/' :: front := Text.join_split '/' _
    rw [hresolve, hjoin, hself, List.append_assoc]
    rfl

/-- The segments of a path, with an empty one in front if that is lost on the way back. -/
def reroot (absolute : Bool) : List Text → List Text
  | [] => if absolute then [[]] else []
  | first :: rest => if absolute && !first.isEmpty then [] :: first :: rest else first :: rest

theorem reroot_concat {absolute : Bool} (h : segments ≠ []) (last : Text) :
    reroot absolute (segments ++ [last]) = reroot absolute segments ++ [last] := by
  cases segments with
  | nil => exact absurd rfl h
  | cons first rest =>
    rw [List.cons_append, reroot, reroot]
    split
    · rfl
    · rfl

theorem reroot_ne_nil {absolute : Bool} (h : segments ≠ []) : reroot absolute segments ≠ [] := by
  cases segments with
  | nil => exact absurd rfl h
  | cons first rest =>
    rw [reroot]
    split
    · exact List.cons_ne_nil _ _
    · exact List.cons_ne_nil _ _

theorem removeDots_eq {path : Text} (h : isDotted path = false) : removeDots path =
    Text.join "/" (reroot (path.head? = some (.scalar '/')) (dropDots [] (path.split '/'))) := by
  show Text.join "/" (if isDotted path then _ else _) = _
  rw [h, if_neg Bool.false_ne_true]
  cases dropDots [] (path.split '/') with
  | nil => simp only [reroot, decide_eq_true_eq]
  | cons first rest => rfl

theorem join_concat_ne_nil {last : Text} (h : last ≠ []) (segments : List Text) :
    Text.join s (segments ++ [last]) ≠ [] := by
  cases segments with
  | nil => exact h
  | cons first rest =>
    rw [Text.join_append (List.cons_ne_nil _ _) (List.cons_ne_nil _ _)]
    intro hnil
    exact h (List.append_eq_nil_iff.mp hnil).2

theorem removeDots_ne_nil {front last : Text} (hlast : CodePoint.scalar '/' ∉ last)
    (hdot : isDot last = false) (hsome : last ≠ []) :
    removeDots (front ++ CodePoint.scalar '/' :: last) ≠ [] := by
  rw [removeDots_eq (by rw [isDotted_append hlast, hdot]), Text.split_append_sep,
    Text.split_of_not_mem hlast, dropDots_concat hdot]
  by_cases hnil : dropDots [] (Text.split '/' front) = []
  · rw [hnil, List.nil_append, reroot]
    split
    · exact join_concat_ne_nil hsome [[]]
    · exact hsome
  · rw [reroot_concat hnil]
    exact join_concat_ne_nil hsome _

/-- One more segment goes on behind a path whose last segment is not one of dots. -/
theorem removeDots_concat {front last next : Text} (hlast : CodePoint.scalar '/' ∉ last)
    (hdot : isDot last = false) (hnext : CodePoint.scalar '/' ∉ next) (hdot' : isDot next = false) :
    removeDots (front ++ CodePoint.scalar '/' :: last ++ CodePoint.scalar '/' :: next) =
      removeDots (front ++ CodePoint.scalar '/' :: last) ++ CodePoint.scalar '/' :: next := by
  have hhead : (front ++ CodePoint.scalar '/' :: last ++ CodePoint.scalar '/' :: next).head? =
      (front ++ CodePoint.scalar '/' :: last).head? := by
    cases front <;> rfl
  have hsome : dropDots [] (Text.split '/' (front ++ CodePoint.scalar '/' :: last)) ≠ [] := by
    rw [Text.split_append_sep, Text.split_of_not_mem hlast, dropDots_concat hdot]
    simp
  have hsplit : dropDots [] (Text.split '/' (front ++ CodePoint.scalar '/' :: last ++
      CodePoint.scalar '/' :: next)) =
        dropDots [] (Text.split '/' (front ++ CodePoint.scalar '/' :: last)) ++ [next] := by
    rw [Text.split_append_sep _ _ next, Text.split_of_not_mem hnext, dropDots_concat hdot']
  rw [removeDots_eq (by rw [isDotted_append hnext, hdot']),
    removeDots_eq (by rw [isDotted_append hlast, hdot]), hhead, hsplit, reroot_concat hsome,
    Text.join_append (reroot_ne_nil hsome) (List.cons_ne_nil _ _), List.append_assoc]
  rfl

end Url

end PullGate
