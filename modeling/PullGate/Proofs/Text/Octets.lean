import Mathlib.Data.List.TakeWhile
import PullGate.Text.Base64
import PullGate.Text.Latin1

/-! Octets as text and text as octets.  What Base64 writes is read back, whatever the length of the
last group, and the octets of Latin-1 are the numbers of the code points, in their order. -/

namespace PullGate

namespace Base64

theorem value?_digit {v : Nat} (h : v < 64) : value? (digit v) = some v := by
  revert v
  decide

theorem digit_ne_pad {v : Nat} (h : v < 64) : digit v ≠ .scalar '=' := by
  revert v
  decide

/-- An octet is its number, whatever digits that is put together from. -/
theorem toUInt8_eq {n : Nat} {a : UInt8} (h : n = a.toNat) : n.toUInt8 = a := by
  rw [h]
  exact UInt8.ofNat_toNat

/-- Four digits without padding are three octets. -/
theorem decode?_group (a b c : UInt8) (rest : Text) :
    decode? (digit (a.toNat / 4) :: digit (a.toNat % 4 * 16 + b.toNat / 16)
      :: digit (b.toNat % 16 * 4 + c.toNat / 64) :: digit (c.toNat % 64) :: rest) =
      (decode? rest).map fun octets => a :: b :: c :: octets := by
  have ha := a.toNat_lt
  have hb := b.toNat_lt
  have hc := c.toNat_lt
  have hw : a.toNat / 4 < 64 := by omega
  have hx : a.toNat % 4 * 16 + b.toNat / 16 < 64 := by omega
  have hy : b.toNat % 16 * 4 + c.toNat / 64 < 64 := by omega
  have hz : c.toNat % 64 < 64 := by omega
  have hfirst : (a.toNat / 4 * 4 + (a.toNat % 4 * 16 + b.toNat / 16) / 16).toUInt8 = a :=
    toUInt8_eq (by omega)
  have hsecond : ((a.toNat % 4 * 16 + b.toNat / 16) % 16 * 16
      + (b.toNat % 16 * 4 + c.toNat / 64) / 4).toUInt8 = b := toUInt8_eq (by omega)
  have hthird : ((b.toNat % 16 * 4 + c.toNat / 64) % 4 * 64 + c.toNat % 64).toUInt8 = c :=
    toUInt8_eq (by omega)
  simp only [decode?, value?_digit hw, value?_digit hx, value?_digit hy, value?_digit hz,
    digit_ne_pad hy, digit_ne_pad hz, hfirst, hsecond, hthird, Option.bind_eq_bind,
    Option.bind_some, ↓reduceIte]

/-- A last group of one octet is padded twice. -/
theorem decode?_one (a : UInt8) :
    decode? [digit (a.toNat / 4), digit (a.toNat % 4 * 16), .scalar '=', .scalar '='] =
      some [a] := by
  have ha := a.toNat_lt
  have hw : a.toNat / 4 < 64 := by omega
  have hx : a.toNat % 4 * 16 < 64 := by omega
  have hfirst : (a.toNat / 4 * 4 + a.toNat % 4 * 16 / 16).toUInt8 = a := toUInt8_eq (by omega)
  have hrest : a.toNat % 4 * 16 % 16 = 0 := by omega
  simp only [decode?, value?_digit hw, value?_digit hx, hfirst, hrest, Option.bind_eq_bind,
    Option.bind_some, decide_true, List.isEmpty_nil, Bool.and_self, ↓reduceIte]

/-- A last group of two octets is padded once. -/
theorem decode?_two (a b : UInt8) :
    decode? [digit (a.toNat / 4), digit (a.toNat % 4 * 16 + b.toNat / 16),
      digit (b.toNat % 16 * 4), .scalar '='] = some [a, b] := by
  have ha := a.toNat_lt
  have hb := b.toNat_lt
  have hw : a.toNat / 4 < 64 := by omega
  have hx : a.toNat % 4 * 16 + b.toNat / 16 < 64 := by omega
  have hy : b.toNat % 16 * 4 < 64 := by omega
  have hfirst : (a.toNat / 4 * 4 + (a.toNat % 4 * 16 + b.toNat / 16) / 16).toUInt8 = a :=
    toUInt8_eq (by omega)
  have hsecond : ((a.toNat % 4 * 16 + b.toNat / 16) % 16 * 16 + b.toNat % 16 * 4 / 4).toUInt8 = b :=
    toUInt8_eq (by omega)
  have hrest : b.toNat % 16 * 4 % 4 = 0 := by omega
  simp only [decode?, value?_digit hw, value?_digit hx, value?_digit hy, digit_ne_pad hy, hfirst,
    hsecond, hrest, Option.bind_eq_bind, Option.bind_some, decide_true, List.isEmpty_nil,
    Bool.and_self, ↓reduceIte]

/-- What is written is read back, group after group. -/
theorem decode?_encode (octets : Octets) : decode? (encode octets) = some octets := by
  fun_induction encode octets with
  | case1 => rfl
  | case2 a => exact decode?_one a
  | case3 a b => exact decode?_two a b
  | case4 a b c rest ih => rw [decode?_group, ih, Option.map_some]

end Base64

namespace Latin1

variable {t : Text} {octets : Octets}

theorem encode_of_all (h : t.all isLatin1 = true) : ∃ octets, encode t = .ok octets := by
  have hnone : t.dropWhile isLatin1 = [] :=
    List.dropWhile_eq_nil_iff.mpr (List.all_eq_true.mp h)
  refine ⟨t.map fun c => c.toNat.toUInt8, ?_⟩
  unfold encode
  rw [hnone]

theorem all_of_encode (h : encode t = .ok octets) : t.all isLatin1 = true := by
  unfold encode at h
  split at h
  · next hnone => exact List.all_eq_true.mpr (List.dropWhile_eq_nil_iff.mp hnone)
  · cases h

theorem encode_of_not_all (h : t.all isLatin1 = false) : ∃ fault, encode t = .error fault := by
  cases hencode : encode t with
  | error fault => exact ⟨fault, rfl⟩
  | ok octets =>
    rw [all_of_encode hencode] at h
    cases h

/-- Each octet is the number of its code point. -/
theorem map_toNat_of_encode (h : encode t = .ok octets) :
    octets.map UInt8.toNat = t.map CodePoint.toNat := by
  have hlatin := List.all_eq_true.mp (all_of_encode h)
  unfold encode at h
  rw [List.dropWhile_eq_nil_iff.mpr hlatin] at h
  obtain rfl := Except.ok.inj h
  rw [List.map_map]
  refine List.map_congr_left fun c hc => ?_
  have hlt : c.toNat < 256 := of_decide_eq_true (hlatin c hc)
  exact UInt8.toNat_ofNat_of_lt' hlt

end Latin1

end PullGate
