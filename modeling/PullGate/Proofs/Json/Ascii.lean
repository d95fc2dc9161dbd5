import Mathlib.Data.List.Infix
import PullGate.Proofs.Json.Escape
import PullGate.Proofs.Text.Digits

/-! JSON is written in graphic characters of ASCII, and so on one line, whatever the value. -/

namespace PullGate

namespace Text

/-- Every code point is one of the first 128. -/
def IsAscii (t : Text) : Prop := t.all CodePoint.isAscii = true

variable {s t : Text}

theorem isAscii_append : IsAscii (s ++ t) ↔ IsAscii s ∧ IsAscii t := by
  rw [IsAscii, List.all_append, Bool.and_eq_true]
  rfl

theorem isAscii_cons {c : CodePoint} : IsAscii (c :: t) ↔ c.isAscii = true ∧ IsAscii t := by
  rw [IsAscii, List.all_cons, Bool.and_eq_true]
  rfl

theorem IsAscii.isUnicode (h : IsAscii t) : isUnicode t = true := by
  refine List.all_eq_true.mpr fun c hc => ?_
  have hascii := List.all_eq_true.mp h c hc
  cases c with
  | scalar c => rfl
  | surrogate half =>
    have hlt := of_decide_eq_true hascii
    rw [CodePoint.toNat] at hlt
    omega

theorem IsAscii.joined (h : IsAscii t) : Joined t := joined_of_isUnicode h.isUnicode

/-- Every code point is a graphic character; so the text is on one line. -/
def IsGraphic (t : Text) : Prop := t.all CodePoint.isGraphic = true

theorem isGraphic_append : IsGraphic (s ++ t) ↔ IsGraphic s ∧ IsGraphic t := by
  rw [IsGraphic, List.all_append, Bool.and_eq_true]
  rfl

theorem isGraphic_cons {c : CodePoint} :
    IsGraphic (c :: t) ↔ c.isGraphic = true ∧ IsGraphic t := by
  rw [IsGraphic, List.all_cons, Bool.and_eq_true]
  rfl

theorem IsGraphic.isAscii (h : IsGraphic t) : IsAscii t := by
  refine List.all_eq_true.mpr fun c hc => ?_
  have hgraphic := List.all_eq_true.mp h c hc
  simp only [CodePoint.isGraphic, Bool.and_eq_true, decide_eq_true_iff] at hgraphic
  simp only [CodePoint.isAscii, decide_eq_true_iff]
  omega

theorem isGraphic_of_digits (h : t.all CodePoint.isDigit = true) : IsGraphic t := by
  refine List.all_eq_true.mpr fun c hc => ?_
  have hdigit := List.all_eq_true.mp h c hc
  simp only [CodePoint.isDigit, Bool.and_eq_true, decide_eq_true_iff] at hdigit
  simp only [CodePoint.isGraphic, Bool.and_eq_true, decide_eq_true_iff]
  omega

theorem isAscii_of_digits (h : t.all CodePoint.isDigit = true) : IsAscii t :=
  (isGraphic_of_digits h).isAscii

theorem IsGraphic.of_subset (ht : IsGraphic t) (h : s ⊆ t) : IsGraphic s :=
  List.all_eq_true.mpr fun c hc => List.all_eq_true.mp ht c (h hc)

theorem isGraphic_ofNat (n : Nat) : IsGraphic (ofNat n) :=
  isGraphic_of_digits (all_isDigit_ofNat n)

theorem isGraphic_ofInt (n : Int) : IsGraphic (ofInt n) := by
  cases n with
  | ofNat n => exact isGraphic_ofNat n
  | negSucc n => exact isGraphic_cons.mpr ⟨rfl, isGraphic_ofNat _⟩

end Text

namespace Double

open Text (isGraphic_append isGraphic_cons)

theorem Decimal.isGraphic_write (x : Decimal) : Text.IsGraphic x.write := by
  have hdigits := Text.isGraphic_ofNat x.digits
  have hzeros := fun count => Text.isGraphic_of_digits (Text.all_isDigit_zeros count)
  have htake := fun count => hdigits.of_subset (List.take_subset count _)
  have hdrop := fun count => hdigits.of_subset (List.drop_subset count _)
  unfold Decimal.write
  dsimp only
  split
  · have hsign : Text.IsGraphic (if x.power + (Text.ofNat x.digits).length - 1 < 0 then "e-"
        else "e+") := by
      split <;> rfl
    have hpad := Text.isGraphic_of_digits
      (Text.all_isDigit_padNat 2 (x.power + (Text.ofNat x.digits).length - 1).natAbs)
    refine isGraphic_append.mpr
      ⟨isGraphic_append.mpr ⟨isGraphic_append.mpr ⟨htake 1, ?_⟩, hsign⟩, hpad⟩
    have htail : Text.IsGraphic (Text.ofNat x.digits).tail := hdigits.of_subset (List.tail_subset _)
    cases htext : (Text.ofNat x.digits).tail with
    | nil => rfl
    | cons c t => exact isGraphic_cons.mpr ⟨rfl, htext ▸ htail⟩
  split
  · exact isGraphic_append.mpr ⟨isGraphic_append.mpr ⟨rfl, hzeros _⟩, hdigits⟩
  split
  · exact isGraphic_append.mpr ⟨isGraphic_append.mpr ⟨hdigits, hzeros _⟩, rfl⟩
  · exact isGraphic_append.mpr ⟨htake _, isGraphic_cons.mpr ⟨rfl, hdrop _⟩⟩

theorem isGraphic_writeDouble (d : Double) : Text.IsGraphic (Json.writeDouble d) := by
  cases d with
  | nan => rfl
  | infinite negative => cases negative <;> rfl
  | finite negative mantissa exponent =>
    refine isGraphic_append.mpr ⟨?_, Decimal.isGraphic_write _⟩
    cases negative <;> rfl

end Double

namespace Json

open Text (isGraphic_append isGraphic_cons)

theorem isGraphic_writeString (t : Text) : Text.IsGraphic (writeString t) := by
  have hescape : Text.IsGraphic (t.flatMap escape) := by
    rw [Text.IsGraphic, List.all_flatMap, List.all_eq_true]
    exact fun c _ => isGraphic_escape c
  exact isGraphic_append.mpr ⟨isGraphic_cons.mpr ⟨rfl, hescape⟩, rfl⟩

-- A character beyond the first plane is written as the two halves of its pair.
example : writeString "é😀" = "\"\\u00e9\\ud83d\\ude00\"" := by
  decide +kernel

mutual

theorem isGraphic_write (j : Json) : Text.IsGraphic (write j) := by
  cases j with
  | null => rw [write]; rfl
  | bool value => cases value <;> rfl
  | int n => rw [write]; exact Text.isGraphic_ofInt n
  | double d => rw [write]; exact Double.isGraphic_writeDouble d
  | string t => rw [write]; exact isGraphic_writeString t
  | array items => rw [write]; exact isGraphic_cons.mpr ⟨rfl, isGraphic_writeItems items⟩
  | object members => rw [write]; exact isGraphic_cons.mpr ⟨rfl, isGraphic_writeMembers members⟩

theorem isGraphic_writeItems (items : List Json) : Text.IsGraphic (writeItems items) := by
  cases items with
  | nil => rw [writeItems]; rfl
  | cons item items =>
    have hitem := isGraphic_write item
    cases items with
    | nil => rw [writeItems]; exact isGraphic_append.mpr ⟨hitem, rfl⟩
    | cons next items =>
      rw [writeItems]
      · have hitems := isGraphic_writeItems (next :: items)
        refine isGraphic_append.mpr ⟨hitem, ?_⟩
        exact isGraphic_cons.mpr ⟨rfl, isGraphic_cons.mpr ⟨rfl, hitems⟩⟩
      · exact List.cons_ne_nil _ _

theorem isGraphic_writeMembers (members : List (Text × Json)) :
    Text.IsGraphic (writeMembers members) := by
  cases members with
  | nil => rw [writeMembers]; rfl
  | cons member members =>
    have hkey := isGraphic_writeString member.1
    have hvalue := isGraphic_write member.2
    cases members with
    | nil =>
      rw [writeMembers]
      refine isGraphic_append.mpr ⟨isGraphic_append.mpr ⟨hkey, ?_⟩, rfl⟩
      exact isGraphic_cons.mpr ⟨rfl, isGraphic_cons.mpr ⟨rfl, hvalue⟩⟩
    | cons next members =>
      rw [writeMembers]
      · have hmembers := isGraphic_writeMembers (next :: members)
        refine isGraphic_append.mpr ⟨isGraphic_append.mpr ⟨hkey, ?_⟩, ?_⟩
        · exact isGraphic_cons.mpr ⟨rfl, isGraphic_cons.mpr ⟨rfl, hvalue⟩⟩
        · exact isGraphic_cons.mpr ⟨rfl, isGraphic_cons.mpr ⟨rfl, hmembers⟩⟩
      · exact List.cons_ne_nil _ _

end

theorem isAscii_write (j : Json) : Text.IsAscii (write j) := (isGraphic_write j).isAscii

end Json

end PullGate
