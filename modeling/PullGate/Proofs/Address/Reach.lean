import PullGate.Proofs.Address.Prepared
import PullGate.Text.Latin1

/-! The addresses of a service.  They all go on behind one base, so which of them can be sent to,
and as whom, is settled by the base. -/

namespace PullGate.Url

variable {idna : Idna}

/-- The user and the password that an address names, if it names them, are in Latin-1. -/
def PlainCredentials (url : Text) : Prop :=
  ∀ user password, credentials? url = some (user, password) →
    user.all Latin1.isLatin1 = true ∧ password.all Latin1.isLatin1 = true

/-- An address that can be prepared, and whose credentials fit into a header. -/
def Preparable (idna : Idna) (url : Text) (query : List (Text × Text)) : Prop :=
  ∃ prepared, prepare idna url query = .ok prepared ∧ PlainCredentials prepared

def Reachable (idna : Idna) (url : Text) (query : List (Text × Text)) : Prop :=
  ∃ prepared, prepare idna url query = .ok prepared ∧ isSendable prepared = true ∧
    PlainCredentials prepared

def under (base resource : Text) : Text := base ++ "/2.0" ++ CodePoint.scalar '/' :: resource

theorem isFront_version (base : Text) : IsFront (base ++ "/2.0") := by
  intro cut hcut
  have hstart : isSchemeStart '/' = false := by decide
  have hversion : base ++ Text.ofString "/2.0" =
      base ++ CodePoint.scalar '/' :: Text.ofString "2.0" := rfl
  rw [hversion, splitScheme?_append hstart, Option.map_eq_some_iff] at hcut
  obtain ⟨⟨scheme, rest⟩, -, rfl⟩ := hcut
  simp [Text.ofString]

theorem trimLeft_append_slash (t p : Text) :
    Text.trimLeft CodePoint.isSpacing (t ++ CodePoint.scalar '/' :: p) =
      Text.trimLeft CodePoint.isSpacing t ++ CodePoint.scalar '/' :: p := by
  have hslash : CodePoint.isSpacing '/' = false := by decide
  induction t with
  | nil => simp [Text.trimLeft, hslash]
  | cons c t ih =>
    unfold Text.trimLeft at ih ⊢
    rw [List.cons_append, List.dropWhile_cons, List.dropWhile_cons]
    split
    · exact ih
    · rfl

theorem trimLeft_under (base resource : Text) :
    Text.trimLeft CodePoint.isSpacing (under base resource) =
      under (Text.trimLeft CodePoint.isSpacing base) resource := by
  have hversion : ∀ u : Text, under u resource =
      u ++ CodePoint.scalar '/' :: (Text.ofString "2.0" ++ CodePoint.scalar '/' :: resource) := by
    intro u
    simp [under, Text.ofString]
  rw [hversion, hversion, trimLeft_append_slash]

/-- If one resource of a service can be sent to, so can every other, with the same credentials. -/
theorem prepare_under {base resource prepared : Text} {pairs : List (Text × Text)}
    (h : prepare idna (under base resource) pairs = .ok prepared) (hs : isSendable prepared = true)
    (resource' : Text) (pairs' : List (Text × Text)) :
    ∃ prepared', prepare idna (under base resource') pairs' = .ok prepared' ∧
      isSendable prepared' = true ∧ credentials? prepared' = credentials? prepared := by
  rw [prepare_eq_trimmed, trimLeft_under] at h
  obtain ⟨scheme, rest, hweb, ⟨w, rfl⟩, hall⟩ :=
    exists_prepared_front (isFront_version _) h hs
  obtain ⟨w', hw'⟩ := hall resource' pairs'
  have hscheme := splitScheme?_web hweb rest
  refine ⟨_, by rw [prepare_eq_trimmed, trimLeft_under]; exact hw', ?_, ?_⟩
  · rw [List.append_assoc, List.append_assoc]
    exact isSendable_web hweb _
  · exact credentials?_append hscheme (by simp [Text.ofString]) _ _

theorem Reachable.under {base resource : Text} {pairs : List (Text × Text)}
    (h : Reachable idna (under base resource) pairs) (resource' : Text)
    (pairs' : List (Text × Text)) : Reachable idna (Url.under base resource') pairs' := by
  obtain ⟨prepared, hprepared, hs, hplain⟩ := h
  obtain ⟨prepared', hprepared', hs', hsame⟩ := prepare_under hprepared hs resource' pairs'
  refine ⟨prepared', hprepared', hs', ?_⟩
  unfold PlainCredentials at hplain ⊢
  rwa [hsame]

end PullGate.Url
