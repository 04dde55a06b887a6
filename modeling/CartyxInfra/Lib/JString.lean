/-
Strings as Java and JavaScript hold them: lists of UTF-16 code units, which
need not be well-formed. A Lean `String` cannot hold a lone surrogate, and
refusing one is what the round trip through UTF-8 is for.

`decodeUtf8_getBytes_iff`: encoding to UTF-8 and decoding again gives the
same string exactly when it is well-formed UTF-16.
-/
import Mathlib.Data.List.Basic
import Mathlib.Data.UInt

namespace CartyxInfra

/-- A Java or JavaScript string: its UTF-16 code units. -/
abbrev JString := List UInt16

instance : LawfulBEq JString := inferInstance

namespace JString

/-- The code units of the scalar value `n`. -/
def units (n : Nat) : JString :=
  if n < 0x10000 then [n.toUInt16]
  else [(0xD800 + (n - 0x10000) / 0x400).toUInt16, (0xDC00 + (n - 0x10000) % 0x400).toUInt16]

/-- A literal of the source. -/
def utf16 (s : String) : JString := s.toList.flatMap fun c => units c.toNat

/-- The first unit of a pair. -/
def isHigh (u : UInt16) : Bool := 0xD800 ≤ u.toNat && u.toNat ≤ 0xDBFF

/-- The second unit of a pair. -/
def isLow (u : UInt16) : Bool := 0xDC00 ≤ u.toNat && u.toNat ≤ 0xDFFF

/-- Every surrogate belongs to a pair, high before low. -/
inductive WellFormed : JString → Prop
  | nil : WellFormed []
  | unit : isHigh u = false → isLow u = false → WellFormed s → WellFormed (u :: s)
  | pair : isHigh u = true → isLow v = true → WellFormed s → WellFormed (u :: v :: s)

/-- The scalar value a surrogate pair stands for. -/
def combine (high low : Nat) : Nat := 0x10000 + (high - 0xD800) * 0x400 + (low - 0xDC00)

/-- The scalar values `String.getBytes` encodes: `?` stands for each
surrogate without its partner. -/
def scalars : JString → List Nat
  | [] => []
  | [u] => if isHigh u || isLow u then [0x3F] else [u.toNat]
  | u :: v :: rest =>
    if isHigh u && isLow v then combine u.toNat v.toNat :: scalars rest
    else if isHigh u || isLow u then 0x3F :: scalars (v :: rest)
    else u.toNat :: scalars (v :: rest)

/-- The UTF-8 bytes of one scalar value. -/
def encode (n : Nat) : List UInt8 :=
  if n < 0x80 then [n.toUInt8]
  else if n < 0x800 then [(0xC0 + n / 64).toUInt8, (0x80 + n % 64).toUInt8]
  else if n < 0x10000 then
    [(0xE0 + n / 4096).toUInt8, (0x80 + n / 64 % 64).toUInt8, (0x80 + n % 64).toUInt8]
  else
    [(0xF0 + n / 262144).toUInt8, (0x80 + n / 4096 % 64).toUInt8, (0x80 + n / 64 % 64).toUInt8,
      (0x80 + n % 64).toUInt8]

/-- `text.getBytes(StandardCharsets.UTF_8)`. -/
def getBytes (s : JString) : List UInt8 := (scalars s).flatMap encode

/-- A scalar value: a code point that is no surrogate. -/
def isScalar (n : Nat) : Bool := n < 0xD800 || (0xDFFF < n && n < 0x110000)

/-- The decoder, with `need` continuation bytes still owed to a character
whose bits so far are `acc` and which must be at least `least` (a smaller one
is overlong). -/
def decodeFrom : Nat → Nat → Nat → List UInt8 → Option JString
  | 0, _, _, [] => some []
  | _ + 1, _, _, [] => none
  | 0, _, _, b :: rest =>
    if b.toNat < 0x80 then (decodeFrom 0 0 0 rest).map (units b.toNat ++ ·)
    else if 0xC0 ≤ b.toNat && b.toNat < 0xE0 then decodeFrom 1 (b.toNat - 0xC0) 0x80 rest
    else if 0xE0 ≤ b.toNat && b.toNat < 0xF0 then decodeFrom 2 (b.toNat - 0xE0) 0x800 rest
    else if 0xF0 ≤ b.toNat && b.toNat < 0xF8 then decodeFrom 3 (b.toNat - 0xF0) 0x10000 rest
    else none
  | need + 1, acc, least, b :: rest =>
    if 0x80 ≤ b.toNat && b.toNat < 0xC0 then
      let acc := acc * 64 + (b.toNat - 0x80)
      if need ≠ 0 then decodeFrom need acc least rest
      else if least ≤ acc && isScalar acc then (decodeFrom 0 0 0 rest).map (units acc ++ ·)
      else none
    else none

/-- `new String(bytes, StandardCharsets.UTF_8)` where the bytes are UTF-8,
and none where they are not (Java then substitutes U+FFFD; what `getBytes`
returns always is UTF-8, `decodeUtf8_getBytes`). -/
def decodeUtf8 (bytes : List UInt8) : Option JString := decodeFrom 0 0 0 bytes

/-! ## Decoding what was encoded -/

theorem toNat_byte {n : Nat} (h : n < 256) : n.toUInt8.toNat = n := by
  simp only [Nat.toUInt8, UInt8.toNat_ofNat']
  omega

theorem decodeFrom_ascii {b : UInt8} (h : b.toNat < 0x80) (rest : List UInt8) :
    decodeFrom 0 0 0 (b :: rest) = (decodeFrom 0 0 0 rest).map (units b.toNat ++ ·) := by
  rw [decodeFrom, if_pos h]

theorem decodeFrom_two {b : UInt8} (h : 0xC0 ≤ b.toNat) (h' : b.toNat < 0xE0) (rest : List UInt8) :
    decodeFrom 0 0 0 (b :: rest) = decodeFrom 1 (b.toNat - 0xC0) 0x80 rest := by
  rw [decodeFrom, if_neg (by omega), if_pos (by simp [h, h'])]

theorem decodeFrom_three {b : UInt8} (h : 0xE0 ≤ b.toNat) (h' : b.toNat < 0xF0) (rest : List UInt8) :
    decodeFrom 0 0 0 (b :: rest) = decodeFrom 2 (b.toNat - 0xE0) 0x800 rest := by
  rw [decodeFrom, if_neg (by omega), if_neg (by simp; omega), if_pos (by simp [h, h'])]

theorem decodeFrom_four {b : UInt8} (h : 0xF0 ≤ b.toNat) (h' : b.toNat < 0xF8) (rest : List UInt8) :
    decodeFrom 0 0 0 (b :: rest) = decodeFrom 3 (b.toNat - 0xF0) 0x10000 rest := by
  rw [decodeFrom, if_neg (by omega), if_neg (by simp; omega), if_neg (by simp; omega),
    if_pos (by simp [h, h'])]

theorem decodeFrom_more {b : UInt8} (h : 0x80 ≤ b.toNat) (h' : b.toNat < 0xC0) (need acc least : Nat)
    (rest : List UInt8) :
    decodeFrom (need + 2) acc least (b :: rest) =
      decodeFrom (need + 1) (acc * 64 + (b.toNat - 0x80)) least rest := by
  rw [decodeFrom, if_pos (by simp [h, h'])]
  simp

theorem decodeFrom_last {b : UInt8} (h : 0x80 ≤ b.toNat) (h' : b.toNat < 0xC0) {acc least n : Nat}
    (hn : acc * 64 + (b.toNat - 0x80) = n) (hl : least ≤ n) (hs : isScalar n = true) (rest : List UInt8) :
    decodeFrom 1 acc least (b :: rest) = (decodeFrom 0 0 0 rest).map (units n ++ ·) := by
  rw [decodeFrom, if_pos (by simp [h, h'])]
  simp [hn, hl, hs]

theorem decodeFrom_encode {n : Nat} (h : isScalar n = true) (rest : List UInt8) :
    decodeFrom 0 0 0 (encode n ++ rest) = (decodeFrom 0 0 0 rest).map (units n ++ ·) := by
  have hn : n < 0xD800 ∨ (0xDFFF < n ∧ n < 0x110000) := by simpa [isScalar] using h
  unfold encode
  split
  · next h1 =>
    have e1 := toNat_byte (by omega : n < 256)
    rw [List.singleton_append, decodeFrom_ascii (by omega), e1]
  split
  · next h1 h2 =>
    have e1 := toNat_byte (by omega : 0xC0 + n / 64 < 256)
    have e2 := toNat_byte (by omega : 0x80 + n % 64 < 256)
    simp only [List.cons_append, List.nil_append]
    rw [decodeFrom_two (by omega) (by omega), e1,
      decodeFrom_last (by omega) (by omega) (n := n) (by omega) (by omega) h]
  split
  · next h1 h2 h3 =>
    have e1 := toNat_byte (by omega : 0xE0 + n / 4096 < 256)
    have e2 := toNat_byte (by omega : 0x80 + n / 64 % 64 < 256)
    have e3 := toNat_byte (by omega : 0x80 + n % 64 < 256)
    simp only [List.cons_append, List.nil_append]
    rw [decodeFrom_three (by omega) (by omega), e1, decodeFrom_more (by omega) (by omega), e2,
      decodeFrom_last (by omega) (by omega) (n := n) (by omega) (by omega) h]
  · next h1 h2 h3 =>
    have e1 := toNat_byte (by omega : 0xF0 + n / 262144 < 256)
    have e2 := toNat_byte (by omega : 0x80 + n / 4096 % 64 < 256)
    have e3 := toNat_byte (by omega : 0x80 + n / 64 % 64 < 256)
    have e4 := toNat_byte (by omega : 0x80 + n % 64 < 256)
    simp only [List.cons_append, List.nil_append]
    rw [decodeFrom_four (by omega) (by omega), e1, decodeFrom_more (by omega) (by omega), e2,
      decodeFrom_more (by omega) (by omega), e3,
      decodeFrom_last (by omega) (by omega) (n := n) (by omega) (by omega) h]

theorem decodeUtf8_encode : ∀ {ns : List Nat}, (∀ n ∈ ns, isScalar n = true) →
    decodeUtf8 (ns.flatMap encode) = some (ns.flatMap units)
  | [], _ => rfl
  | n :: ns, h => by
    have ih := @decodeUtf8_encode ns fun m hm => h m (by simp [hm])
    simp only [decodeUtf8] at ih ⊢
    rw [List.flatMap_cons, decodeFrom_encode (h n (by simp)), ih]
    simp

/-! ## Well-formed strings -/

theorem isScalar_combine {x y : Nat} (hx : 0xD800 ≤ x) (hx' : x ≤ 0xDBFF) (hy : 0xDC00 ≤ y)
    (hy' : y ≤ 0xDFFF) : isScalar (combine x y) = true := by
  simp only [isScalar, Bool.or_eq_true, Bool.and_eq_true, decide_eq_true_eq]
  unfold combine
  omega

theorem isScalar_pair {u v : UInt16} (hu : isHigh u = true) (hv : isLow v = true) :
    isScalar (combine u.toNat v.toNat) = true := by
  simp only [isHigh, isLow, Bool.and_eq_true, decide_eq_true_eq] at hu hv
  exact isScalar_combine hu.1 hu.2 hv.1 hv.2

theorem isScalar_unit {u : UInt16} (hh : isHigh u = false) (hl : isLow u = false) :
    isScalar u.toNat = true := by
  have hu := u.toNat_lt
  simp only [isHigh, isLow, Bool.and_eq_false_iff, decide_eq_false_iff_not] at hh hl
  simp only [isScalar, Bool.or_eq_true, Bool.and_eq_true, decide_eq_true_eq]
  omega

theorem scalars_isScalar (s : JString) : ∀ n ∈ scalars s, isScalar n = true := by
  induction s using scalars.induct with
  | case1 => simp [scalars]
  | case2 u h => simp [scalars, h, isScalar]
  | case3 u h =>
    simp only [Bool.or_eq_true, not_or, Bool.not_eq_true] at h
    simp [scalars, h, isScalar_unit h.1 h.2]
  | case4 u v rest h ih =>
    simp only [Bool.and_eq_true] at h
    simpa [scalars, h, isScalar_pair h.1 h.2] using ih
  | case5 u v rest h h' ih => simpa [scalars, h, h', isScalar] using ih
  | case6 u v rest h h' ih =>
    simp only [Bool.or_eq_true, not_or, Bool.not_eq_true] at h'
    simpa [scalars, h'.1, h'.2, isScalar_unit h'.1 h'.2] using ih

theorem decodeUtf8_getBytes (s : JString) :
    decodeUtf8 (getBytes s) = some ((scalars s).flatMap units) :=
  decodeUtf8_encode (scalars_isScalar s)

theorem units_unit (u : UInt16) : units u.toNat = [u] := by
  have hu := u.toNat_lt
  rw [units, if_pos (by omega)]
  simp

theorem units_combine {x y : Nat} (hx : 0xD800 ≤ x) (hx' : x ≤ 0xDBFF) (hy : 0xDC00 ≤ y)
    (hy' : y ≤ 0xDFFF) : units (combine x y) = [x.toUInt16, y.toUInt16] := by
  have hc : ¬ combine x y < 0x10000 := by unfold combine; omega
  have e1 : 0xD800 + (combine x y - 0x10000) / 0x400 = x := by unfold combine; omega
  have e2 : 0xDC00 + (combine x y - 0x10000) % 0x400 = y := by unfold combine; omega
  rw [units, if_neg hc, e1, e2]

theorem units_pair {u v : UInt16} (hu : isHigh u = true) (hv : isLow v = true) :
    units (combine u.toNat v.toNat) = [u, v] := by
  simp only [isHigh, isLow, Bool.and_eq_true, decide_eq_true_eq] at hu hv
  rw [units_combine hu.1 hu.2 hv.1 hv.2]
  simp

theorem scalars_pair {u v : UInt16} (hu : isHigh u = true) (hv : isLow v = true) (s : JString) :
    scalars (u :: v :: s) = combine u.toNat v.toNat :: scalars s := by
  simp [scalars, hu, hv]

theorem scalars_unit {u : UInt16} (hh : isHigh u = false) (hl : isLow u = false) (s : JString) :
    scalars (u :: s) = u.toNat :: scalars s := by
  cases s <;> simp [scalars, hh, hl]

theorem flatMap_units_scalars {s : JString} (h : WellFormed s) : (scalars s).flatMap units = s := by
  induction h with
  | nil => rfl
  | unit hh hl _ ih => rw [scalars_unit hh hl, List.flatMap_cons, units_unit, ih]; rfl
  | pair hu hv _ ih => rw [scalars_pair hu hv, List.flatMap_cons, units_pair hu hv, ih]; rfl

/-- A lone surrogate comes back as `?`, which is not a surrogate. -/
theorem wellFormed_of_flatMap_units {s : JString} (h : (scalars s).flatMap units = s) : WellFormed s := by
  have hq : units 0x3F = [0x3F] := by decide
  have lone : ∀ {u : UInt16} {t t' : JString}, (isHigh u || isLow u) = true →
      units 0x3F ++ t ≠ u :: t' := by
    intro u t t' hu he
    rw [hq] at he
    simp only [List.cons_append, List.nil_append, List.cons.injEq] at he
    rw [← he.1] at hu
    revert hu
    decide
  induction s using scalars.induct with
  | case1 => exact .nil
  | case2 u hu =>
    rw [scalars, if_pos hu, List.flatMap_cons] at h
    exact absurd h (lone hu)
  | case3 u hu =>
    simp only [Bool.or_eq_true, not_or, Bool.not_eq_true] at hu
    exact .unit hu.1 hu.2 .nil
  | case4 u v rest huv ih =>
    simp only [Bool.and_eq_true] at huv
    rw [scalars_pair huv.1 huv.2, List.flatMap_cons, units_pair huv.1 huv.2] at h
    simp only [List.cons_append, List.nil_append, List.cons.injEq, true_and] at h
    exact .pair huv.1 huv.2 (ih h)
  | case5 u v rest huv hu ih =>
    rw [scalars, if_neg huv, if_pos hu, List.flatMap_cons] at h
    exact absurd h (lone hu)
  | case6 u v rest huv hu ih =>
    simp only [Bool.or_eq_true, not_or, Bool.not_eq_true] at hu
    rw [scalars_unit hu.1 hu.2, List.flatMap_cons, units_unit] at h
    simp only [List.cons_append, List.nil_append, List.cons.injEq, true_and] at h
    exact .unit hu.1 hu.2 (ih h)

/-- **The UTF-8 round trip** is the identity exactly on well-formed UTF-16. -/
theorem decodeUtf8_getBytes_iff {s : JString} : decodeUtf8 (getBytes s) = some s ↔ WellFormed s := by
  rw [decodeUtf8_getBytes, Option.some.injEq]
  exact ⟨wellFormed_of_flatMap_units, flatMap_units_scalars⟩

end JString
end CartyxInfra
