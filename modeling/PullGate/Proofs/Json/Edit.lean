import Mathlib.Data.List.Forall2
import PullGate.Json.Basic

/-! Objects that agree under some of their keys, and edits of an object that keep it so. -/

namespace PullGate.Json

variable {keys : List Text} {m m' : List (Text × Json)}

/-- One value, whatever members the objects in it have and in what order. -/
inductive Outline : Json → Json → Prop
  | same (j : Json) : Outline j j
  | objects (m m' : List (Text × Json)) : Outline (.object m) (.object m')
  | items {items items' : List Json} (h : List.Forall₂ Outline items items') :
    Outline (.array items) (.array items')

/-- Under each of the keys there is the same value, or none in either. -/
def AgreeOn (keys : List Text) (m m' : List (Text × Json)) : Prop :=
  ∀ key ∈ keys, Option.Rel Outline (lookup key m) (lookup key m')

theorem lookup_append (key : Text) (m m' : List (Text × Json)) :
    lookup key (m ++ m') = (lookup key m).or (lookup key m') := by
  induction m with
  | nil => rfl
  | cons x m ih =>
    rw [List.cons_append, lookup, lookup, ih]
    split
    · rfl
    · rfl

/-- An edit of the members of an object that no reader of the keys can see: a member under another
key is put in somewhere, or two neighbours under different keys change places. -/
inductive Edit (keys : List Text) : List (Text × Json) → List (Text × Json) → Prop
  | put (before after : List (Text × Json)) {key : Text} (value : Json) (h : key ∉ keys) :
    Edit keys (before ++ after) (before ++ (key, value) :: after)
  | swap (before after : List (Text × Json)) {x y : Text × Json} (h : x.1 ≠ y.1) :
    Edit keys (before ++ x :: y :: after) (before ++ y :: x :: after)

theorem lookup_put {key other : Text} (h : other ≠ key) (value : Json) :
    lookup key (m ++ (other, value) :: m') = lookup key (m ++ m') := by
  rw [lookup_append, lookup_append, lookup, if_neg h]

theorem rel_of_eq {R : Json → Json → Prop} (hrefl : ∀ j, R j j) {found found' : Option Json}
    (h : found = found') : Option.Rel R found found' := by
  obtain rfl := h
  cases found with
  | none => exact .none
  | some j => exact .some (hrefl j)

theorem Edit.lookup_eq {key : Text} (h : Edit keys m m') (hkey : key ∈ keys) :
    lookup key m = lookup key m' := by
  cases h with
  | @put before after other value hother =>
    have hne : other ≠ key := fun heq => hother (heq ▸ hkey)
    exact (lookup_put hne value).symm
  | @swap before after x y hne =>
    rw [lookup_append, lookup_append]
    congr 1
    simp only [lookup]
    split
    · next hx => rw [if_neg (fun hy => hne (hx.trans hy.symm))]
    · rfl

theorem Edit.agreeOn (h : Edit keys m m') : AgreeOn keys m m' :=
  fun _ hkey => rel_of_eq .same (h.lookup_eq hkey)

/-- A member whose value is replaced by a related one: every other value stays. -/
theorem rel_lookup_replace {R : Json → Json → Prop} (hrefl : ∀ j, R j j)
    (before after : List (Text × Json)) (name : Text) {j j' : Json} (h : R j j') (key : Text) :
    Option.Rel R (lookup key (before ++ (name, j) :: after))
      (lookup key (before ++ (name, j') :: after)) := by
  rw [lookup_append, lookup_append, lookup, lookup]
  cases lookup key before with
  | some found => exact rel_of_eq hrefl rfl
  | none =>
    rw [Option.none_or, Option.none_or]
    split
    · exact .some h
    · exact rel_of_eq hrefl rfl

theorem lookup_replace_of_ne (before after : List (Text × Json)) {name key : Text}
    (h : name ≠ key) (j j' : Json) :
    lookup key (before ++ (name, j) :: after) = lookup key (before ++ (name, j') :: after) := by
  rw [lookup_put h, lookup_put h]

end PullGate.Json
