/-
Texts of numbers. A text is that of a number if and only if it has the form of one, and the text that a number is
written with reads as that number.
-/
import Conduit.Proofs.Binary64.Shortest
import Conduit.Proofs.Numeral

namespace Conduit.Binary64

variable {whole fraction tail cs ds : List Char} {negative : Bool} {d m : Nat} {e k : Int} {s : String} {x : Binary64}

/-! ## The form of a numeral -/

/-- All characters are digits. -/
def Digits (cs : List Char) : Prop := ∀ c ∈ cs, c.isDigit

/-- No exponent, or the letter, a sign or none, and digits. -/
def IsExponent (cs : List Char) : Prop :=
  cs = [] ∨ ∃ c r, cs = c :: r ∧ (c = 'e' ∨ c = 'E') ∧ (signed r).2 ≠ [] ∧ Digits (signed r).2

/-- Digits with a point among them or without one, and an exponent. -/
def IsMagnitude (cs : List Char) : Prop := ∃ whole fraction tail, Digits whole ∧ Digits fraction ∧ IsExponent tail ∧
  (whole ≠ [] ∧ cs = whole ++ tail ∨ whole ++ fraction ≠ [] ∧ cs = whole ++ '.' :: (fraction ++ tail))

/-- A sign or none, and then the name of a special number in any case, or digits. -/
def IsNumeral (s : String) : Prop :=
  let cs := (signed s.toList).2
  String.ofList (cs.map Char.toLower) ∈ ["inf", "infinity", "nan"] ∨ IsMagnitude cs

theorem exponent?_isSome_iff : (exponent? cs).isSome ↔ IsExponent cs := by
  unfold IsExponent
  cases cs with
  | nil => exact ⟨fun _ => .inl rfl, fun _ => rfl⟩
  | cons c r =>
    rw [exponent?]
    by_cases hc : c = 'e' ∨ c = 'E'
    · rw [if_pos hc]
      dsimp only
      -- Behind the letter and the sign there have to be digits, and nothing else.
      by_cases hdigits : (signed r).2.isEmpty || !(signed r).2.all Char.isDigit
      · rw [if_pos hdigits]
        simp only [Bool.or_eq_true, List.isEmpty_iff, Bool.not_eq_true', List.all_eq_false] at hdigits
        refine ⟨nofun, ?_⟩
        rintro (hnil | ⟨c', r', hcr, -, hne, hall⟩)
        · cases hnil
        · cases hcr
          rcases hdigits with h | ⟨c', hc', hnot⟩
          · exact absurd h hne
          · exact absurd (hall c' hc') hnot
      · rw [if_neg hdigits]
        simp only [Bool.or_eq_true, not_or, List.isEmpty_iff, Bool.not_eq_true', Bool.not_eq_false,
          List.all_eq_true] at hdigits
        exact ⟨fun _ => .inr ⟨c, r, rfl, hc, hdigits.1, hdigits.2⟩, fun _ => rfl⟩
    · rw [if_neg hc]
      refine ⟨nofun, ?_⟩
      rintro (hnil | ⟨c', r', hcr, hc', -⟩)
      · cases hnil
      · cases hcr
        exact absurd hc' hc

theorem IsExponent.head (h : IsExponent cs) {c : Char} (hc : cs.head? = some c) : c = 'e' ∨ c = 'E' := by
  rcases h with rfl | ⟨c', r, rfl, hc', -⟩
  · cases hc
  · cases hc
    exact hc'

theorem takeWhile_digits (hds : Digits ds) (htail : ∀ c, tail.head? = some c → ¬c.isDigit) :
    (ds ++ tail).takeWhile Char.isDigit = ds ∧ (ds ++ tail).dropWhile Char.isDigit = tail := by
  rw [List.takeWhile_append_of_pos hds, List.dropWhile_append_of_pos hds]
  cases tail with
  | nil => simp
  | cons c r => simp [htail c rfl]

/-- Digits without a point. -/
theorem magnitude?_whole (hwhole : Digits whole) (hne : whole ≠ [])
    (htail : ∀ c, tail.head? = some c → ¬c.isDigit ∧ c ≠ '.') :
    magnitude? negative (whole ++ tail) =
      (exponent? tail).map fun k => ofDecimal negative (Nat.ofDigitChars 10 whole 0) k := by
  obtain ⟨htake, hdrop⟩ := takeWhile_digits hwhole fun c hc => (htail c hc).1
  unfold magnitude?
  dsimp only
  rw [htake, hdrop]
  split
  · exact absurd rfl (htail '.' rfl).2
  · dsimp only
    rw [if_neg (by simpa using hne)]
    simp only [List.length_nil, Nat.cast_zero, sub_zero]
    rfl

/-- Digits with a point. -/
theorem magnitude?_point (hwhole : Digits whole) (hfraction : Digits fraction) (hne : whole ++ fraction ≠ [])
    (htail : ∀ c, tail.head? = some c → ¬c.isDigit) :
    magnitude? negative (whole ++ '.' :: (fraction ++ tail)) =
      (exponent? tail).map fun k =>
        ofDecimal negative (Nat.ofDigitChars 10 (whole ++ fraction) 0) (k - fraction.length) := by
  have hpoint : ∀ c, ('.' :: (fraction ++ tail)).head? = some c → ¬c.isDigit := fun c hc => by cases hc; decide
  obtain ⟨htake, hdrop⟩ := takeWhile_digits hwhole hpoint
  obtain ⟨htake', hdrop'⟩ := takeWhile_digits hfraction htail
  unfold magnitude?
  dsimp only
  rw [htake, hdrop]
  simp only
  rw [htake', hdrop', if_neg, Nat.ofDigitChars_append]
  · rfl
  · rw [Bool.and_eq_true, List.isEmpty_iff, List.isEmpty_iff]
    rintro ⟨rfl, rfl⟩
    exact hne rfl

theorem digits_takeWhile (cs : List Char) : Digits (cs.takeWhile Char.isDigit) := List.all_eq_true.1 List.all_takeWhile

/-- What has the form of a magnitude, and nothing else, reads as a number. -/
theorem magnitude?_isSome_iff : (magnitude? negative cs).isSome ↔ IsMagnitude cs := by
  constructor
  · intro h
    unfold magnitude? at h
    dsimp only at h
    have hcs : cs.takeWhile Char.isDigit ++ cs.dropWhile Char.isDigit = cs := List.takeWhile_append_dropWhile
    have hwhole := digits_takeWhile cs
    generalize cs.takeWhile Char.isDigit = whole at h hcs hwhole
    generalize cs.dropWhile Char.isDigit = rest at h hcs
    subst hcs
    -- What follows the whole digits begins with the point, or it does not.
    split at h
    · rename_i r
      have hr : r.takeWhile Char.isDigit ++ r.dropWhile Char.isDigit = r := List.takeWhile_append_dropWhile
      by_cases hempty : whole.isEmpty && (r.takeWhile Char.isDigit).isEmpty
      · rw [if_pos hempty] at h
        cases h
      · rw [if_neg hempty, Option.isSome_map, exponent?_isSome_iff] at h
        refine ⟨whole, _, _, hwhole, digits_takeWhile r, h, .inr ⟨?_, by rw [hr]⟩⟩
        simpa [List.isEmpty_iff] using hempty
    · by_cases hempty : whole.isEmpty && ([] : List Char).isEmpty
      · rw [if_pos hempty] at h
        cases h
      · rw [if_neg hempty, Option.isSome_map, exponent?_isSome_iff] at h
        exact ⟨whole, [], rest, hwhole, nofun, h, .inl ⟨by simpa [List.isEmpty_iff] using hempty, rfl⟩⟩
  · rintro ⟨whole, fraction, tail, hwhole, hfraction, htail, ⟨hne, rfl⟩ | ⟨hne, rfl⟩⟩
    · rw [magnitude?_whole hwhole hne fun c hc => by rcases htail.head hc with rfl | rfl <;> decide, Option.isSome_map]
      exact exponent?_isSome_iff.2 htail
    · rw [magnitude?_point hwhole hfraction hne fun c hc => by rcases htail.head hc with rfl | rfl <;> decide,
        Option.isSome_map]
      exact exponent?_isSome_iff.2 htail

theorem IsMagnitude.head (h : IsMagnitude cs) : ∃ c rest, cs = c :: rest ∧ (c.isDigit ∨ c = '.') := by
  obtain ⟨whole, fraction, tail, hwhole, -, -, ⟨hne, rfl⟩ | ⟨-, rfl⟩⟩ := h
  · obtain ⟨c, rest, rfl⟩ := List.exists_cons_of_ne_nil hne
    exact ⟨c, _, rfl, .inl (hwhole c (List.mem_cons_self ..))⟩
  · cases whole with
    | nil => exact ⟨'.', _, rfl, .inr rfl⟩
    | cons c rest => exact ⟨c, _, rfl, .inl (hwhole c (List.mem_cons_self ..))⟩

/-- What has the form of a numeral, and nothing else, reads as a number. -/
theorem ofText?_isSome_iff : (ofText? s).isSome ↔ IsNumeral s := by
  unfold ofText? IsNumeral
  simp only [List.mem_cons, List.not_mem_nil, or_false]
  split_ifs with hinf hnan
  · exact ⟨fun _ => .inl (by tauto), fun _ => rfl⟩
  · exact ⟨fun _ => .inl (.inr (.inr hnan)), fun _ => rfl⟩
  · rw [magnitude?_isSome_iff]
    exact ⟨.inr, fun h => h.resolve_left (by tauto)⟩

theorem isMagnitude_digits (hcs : Digits cs) (hne : cs ≠ []) : IsMagnitude cs :=
  ⟨cs, [], [], hcs, nofun, .inl rfl, .inl ⟨hne, (List.append_nil cs).symm⟩⟩

theorem signed_of_ne {c : Char} {rest : List Char} (hminus : c ≠ '-') (hplus : c ≠ '+') :
    signed (c :: rest) = (false, c :: rest) := by
  unfold signed
  split
  · rename_i heq
    exact absurd (List.cons.inj heq).1 hminus
  · rename_i heq
    exact absurd (List.cons.inj heq).1 hplus
  · rfl

theorem signed_of_isDigit {c : Char} {rest : List Char} (hc : c.isDigit) : signed (c :: rest) = (false, c :: rest) :=
  signed_of_ne (fun h => absurd (h ▸ hc) (by decide)) fun h => absurd (h ▸ hc) (by decide)

theorem isNumeral_of_integer? {i : Int} (h : Numeral.integer? s.toList = some i) : IsNumeral s := by
  obtain ⟨ds, hne, hds, hs⟩ := Numeral.digits_of_integer? h
  have hsigned : (signed s.toList).2 = ds := by
    rcases hs with hs | hs | hs <;> rw [hs]
    · obtain ⟨c, rest, rfl⟩ := List.exists_cons_of_ne_nil hne
      rw [signed_of_isDigit (hds c (List.mem_cons_self ..))]
    · rfl
    · rfl
  right
  rw [hsigned]
  exact isMagnitude_digits hds hne

theorem proper_ofText? (h : ofText? s = some x) : x.Proper := by
  unfold ofText? at h
  simp only at h
  split_ifs at h with hinf hnan
  · cases h
    trivial
  · cases h
    trivial
  · unfold magnitude? at h
    simp only at h
    split_ifs at h
    obtain ⟨k, -, rfl⟩ := Option.map_eq_some_iff.1 h
    exact proper_ofDecimal ..

/-! ## Writing -/

/-- Digits that come to `d * 10 ^ k`, without a point or with one. -/
inductive Writes (d : Nat) (k : Int) : List Char → Prop
  | whole {cs : List Char} (hcs : Digits cs) (hne : cs ≠ []) (hk : 0 ≤ k)
    (hvalue : Nat.ofDigitChars 10 cs 0 = 10 ^ k.toNat * d) : Writes d k cs
  | point {whole fraction : List Char} (hwhole : Digits whole) (hfraction : Digits fraction) (hne : whole ≠ [])
    (hk : k = -fraction.length) (hvalue : Nat.ofDigitChars 10 (whole ++ fraction) 0 = d) :
    Writes d k (whole ++ '.' :: fraction)

theorem digits_toDigits (d : Nat) : Digits (Nat.toDigits 10 d) := fun _ hc =>
  Nat.isDigit_of_mem_toDigits (by decide) (by decide) hc

theorem digits_zeros (n : Nat) : Digits (List.replicate n '0') := fun c hc => by
  rw [List.eq_of_mem_replicate hc]
  rfl

theorem Digits.append (h : Digits cs) (h' : Digits ds) : Digits (cs ++ ds) := fun c hc =>
  (List.mem_append.1 hc).elim (h c) (h' c)

theorem writes_positional (d : Nat) (k : Int) : Writes d k (positional d k).toList := by
  have hds := digits_toDigits d
  have hne : Nat.toDigits 10 d ≠ [] := Nat.toDigits_ne_nil
  have hvalue : Nat.ofDigitChars 10 (Nat.toDigits 10 d) 0 = d := Nat.ofDigitChars_ten_toDigits
  unfold positional
  dsimp only
  generalize Nat.toDigits 10 d = ds at hds hne hvalue
  split_ifs with hk hlong
  · rw [String.toList_ofList]
    -- zeros behind the digits, and no point
    refine .whole (hds.append (digits_zeros _)) (by simp [hne]) hk ?_
    rw [Nat.ofDigitChars_append, hvalue, Nat.ofDigitChars_replicate_zero]
  · rw [String.toList_ofList]
    -- the point among the digits
    refine .point (fun c hc => hds c (List.mem_of_mem_take hc)) (fun c hc => hds c (List.mem_of_mem_drop hc)) ?_ ?_ ?_
    · rw [ne_eq, List.take_eq_nil_iff, not_or]
      exact ⟨by omega, hne⟩
    · rw [List.length_drop]
      omega
    · rw [List.take_append_drop, hvalue]
  · rw [String.toList_ofList, List.cons_append, List.cons_append]
    -- a zero, the point, and zeros in front of the digits
    show Writes d k (['0'] ++ '.' :: _)
    refine .point (digits_zeros 1) ((digits_zeros _).append hds) (List.cons_ne_nil _ _) ?_ ?_
    · rw [List.length_append, List.length_replicate]
      omega
    · rw [Nat.ofDigitChars_append, Nat.ofDigitChars_append, Nat.ofDigitChars_replicate_zero]
      rwa [show Nat.ofDigitChars 10 ['0'] 0 = 0 from rfl, mul_zero]

theorem Writes.head (h : Writes d k cs) : ∃ c rest, cs = c :: rest ∧ c.isDigit := by
  cases h with
  | whole hcs hne _ _ =>
    obtain ⟨c, rest, rfl⟩ := List.exists_cons_of_ne_nil hne
    exact ⟨c, rest, rfl, hcs c (List.mem_cons_self ..)⟩
  | point hwhole _ hne _ _ =>
    obtain ⟨c, rest, rfl⟩ := List.exists_cons_of_ne_nil hne
    exact ⟨c, _, rfl, hwhole c (List.mem_cons_self ..)⟩

/-- Digits that are written out are read with their value. -/
theorem Writes.magnitude? (h : Writes d k cs) (negative : Bool) : ∃ (digits : Nat) (power : Int),
    (digits : ℚ) * 10 ^ power = d * 10 ^ k ∧ magnitude? negative cs = some (ofDecimal negative digits power) := by
  cases h with
  | whole hcs hne hk hvalue =>
    refine ⟨10 ^ k.toNat * d, 0, ?_, ?_⟩
    · rw [zpow_zero, zpow_of_nonneg _ hk]
      push_cast
      ring
    · have hread : Binary64.magnitude? negative (cs ++ []) = _ := magnitude?_whole hcs hne nofun
      rwa [List.append_nil, hvalue] at hread
  | @point whole fraction hwhole hfraction hne hk hvalue =>
    refine ⟨d, k, rfl, ?_⟩
    have hread : Binary64.magnitude? negative (whole ++ '.' :: (fraction ++ [])) = _ :=
      magnitude?_point hwhole hfraction (by simp [hne]) nofun
    rw [List.append_nil, hvalue] at hread
    rw [hread, hk, exponent?, Option.map_some, zero_sub]

theorem toLower_of_isDigit {c : Char} (hc : c.isDigit) : c.toLower = c := by
  unfold Char.toLower
  rw [dif_neg]
  rintro ⟨hcapital, -⟩
  have hle : c.val ≤ '9'.val := of_decide_eq_true (Bool.and_eq_true_iff.1 hc).2
  exact absurd (UInt32.le_trans hcapital hle) (by decide)

theorem ofText?_of_head {body : String} {c : Char} {rest : List Char} (hbody : body.toList = c :: rest) (hc : c.isDigit)
    (negative : Bool) : ofText? (if negative then "-" ++ body else body) = magnitude? negative body.toList := by
  have hsigned : signed (if negative then "-" ++ body else body).toList = (negative, body.toList) := by
    cases negative with
    | true => rw [if_pos rfl, String.toList_append]; rfl
    | false =>
      rw [if_neg Bool.false_ne_true, hbody, signed_of_isDigit hc]
  -- no name of a special number begins with a digit
  have hname : ∀ name : String, (∃ c' r, name.toList = c' :: r ∧ ¬c'.isDigit) →
      String.ofList (body.toList.map Char.toLower) ≠ name := by
    rintro name ⟨c', r, hname, hc'⟩ heq
    rw [hbody, List.map_cons, toLower_of_isDigit hc] at heq
    have hlist := congrArg String.toList heq
    rw [String.toList_ofList, hname] at hlist
    cases hlist
    exact hc' hc
  unfold ofText?
  rw [hsigned]
  dsimp only
  rw [if_neg, if_neg (hname "nan" ⟨'n', _, rfl, by decide⟩)]
  exact not_or.2 ⟨hname "inf" ⟨'i', _, rfl, by decide⟩, hname "infinity" ⟨'i', _, rfl, by decide⟩⟩

/-- The digits that the magnitude of a number is written with, and their power of ten. -/
def written (m : Nat) (e : Int) : Nat × Int := if m = 0 then (0, 0) else shortest m e

theorem text_finite (negative : Bool) (m : Nat) (e : Int) : (finite negative m e).text =
    if negative then "-" ++ positional (written m e).1 (written m e).2
      else positional (written m e).1 (written m e).2 := by
  rw [text, written]
  split_ifs <;> rfl

theorem head_text_finite (negative : Bool) (m : Nat) (e : Int) :
    ∃ c rest, (finite negative m e).text.toList = c :: rest ∧ (c.isDigit ∨ c = '-') := by
  obtain ⟨c, rest, hhead, hc⟩ := (writes_positional (written m e).1 (written m e).2).head
  rw [text_finite]
  cases negative with
  | true =>
    rw [if_pos rfl, String.toList_append]
    exact ⟨'-', _, rfl, .inr rfl⟩
  | false =>
    rw [if_neg Bool.false_ne_true]
    exact ⟨c, rest, hhead, .inl hc⟩

theorem ofDecimal_of_written {digits : Nat} {power : Int} (hf : InFormat m e)
    (hvalue : (digits : ℚ) * 10 ^ power = (written m e).1 * 10 ^ (written m e).2) (negative : Bool) :
    ofDecimal negative digits power = .finite negative m e := by
  unfold written at hvalue
  split_ifs at hvalue with hm
  · have hdigits : digits = 0 := by
      rw [Nat.cast_zero, zero_mul, mul_eq_zero_iff_right (ten_zpow_pos power).ne'] at hvalue
      exact_mod_cast hvalue
    have he : e = leastExponent := hf.full.resolve_left (by omega)
    rw [hdigits, hm, he, ofDecimal, if_pos rfl, zero]
  · have hpos := Nat.pos_of_ne_zero hm
    exact ofDecimal_of_reads hf hpos (hvalue ▸ shortest_reads hpos hf) negative

/-- The text of a number reads as that number. -/
theorem ofText?_text (hx : x.Proper) : ofText? x.text = some x := by
  cases x with
  | nan => decide +kernel
  | infinite negative => cases negative <;> decide +kernel
  | finite negative m e =>
    have hwrites := writes_positional (written m e).1 (written m e).2
    obtain ⟨c, rest, hhead, hc⟩ := hwrites.head
    obtain ⟨digits, power, hvalue, hread⟩ := hwrites.magnitude? negative
    rw [text_finite, ofText?_of_head hhead hc, hread, ofDecimal_of_written hx hvalue]

/-! ## Whole numbers -/

/-- A magnitude without a point is written as an integer is. -/
theorem positional_written (hf : InFormat m e) (hk : 0 ≤ (written m e).2) :
    ∃ n : Nat, (0 < m → 0 < n) ∧ positional (written m e).1 (written m e).2 = String.ofList (Nat.toDigits 10 n) := by
  unfold positional
  rw [if_pos hk]
  rcases Nat.eq_zero_or_pos m with rfl | hm
  · exact ⟨0, fun h => absurd h (Nat.lt_irrefl 0), by rw [written, if_pos rfl]; rfl⟩
  · have hreads := shortest_reads hm hf
    rw [written, if_neg hm.ne']
    have hd : 0 < (shortest m e).1 := by
      have := (mul_pos_iff_of_pos_right (ten_zpow_pos _)).1 (hreads.pos hm)
      exact_mod_cast this
    refine ⟨(shortest m e).1 * 10 ^ (shortest m e).2.toNat, fun _ => Nat.mul_pos hd (Nat.pow_pos (by decide)), ?_⟩
    rw [Numeral.toDigits_mul_tenTo hd]

theorem Writes.point_mem (h : Writes d k cs) (hk : k < 0) : '.' ∈ cs := by
  cases h with
  | whole _ _ hk' _ => omega
  | point => simp

/-- Where the text of a number reads as an integer, it is the text of this integer. -/
theorem toString_of_integer? {i : Int} (hx : x.Proper) (hzero : x ≠ zero true)
    (h : Numeral.integer? x.text.toList = some i) : toString i = x.text := by
  have hchars := Numeral.isDigit_of_integer? h
  cases x with
  | nan => exact absurd (hchars 'N' (by decide +kernel)) (by decide)
  | infinite negative =>
    have hmem : 'i' ∈ (infinite negative).text.toList := by cases negative <;> decide +kernel
    exact absurd (hchars 'i' hmem) (by decide)
  | finite negative m e =>
    rw [text_finite] at h hchars ⊢
    -- With places behind the point there is a point in the text, and no integer has one.
    rcases lt_or_ge (written m e).2 0 with hk | hk
    · have hmem := (writes_positional (written m e).1 (written m e).2).point_mem hk
      refine absurd (hchars '.' ?_) (by decide)
      split_ifs
      · rw [String.toList_append]
        exact List.mem_append_right _ hmem
      · exact hmem
    · obtain ⟨n, hn, htext⟩ := positional_written hx hk
      rw [htext] at h ⊢
      cases negative with
      | true =>
        -- The minus belongs to a number other than zero, since negative zero is left out.
        have hm : m ≠ 0 := fun hm =>
          hzero (by rw [hm, (InFormat.full hx).resolve_left (by omega), zero])
        rw [if_pos rfl, ← Numeral.toString_neg (hn (Nat.pos_of_ne_zero hm))] at h ⊢
        cases (Numeral.integer?_toString _).symm.trans h
        rfl
      | false =>
        rw [if_neg Bool.false_ne_true, ← Numeral.toString_natCast] at h ⊢
        cases (Numeral.integer?_toString _).symm.trans h
        rfl

end Conduit.Binary64
