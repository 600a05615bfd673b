import Recourse.Proofs.Documents
import Recourse.Proofs.Shortest

/-!
# Binary64 numbers in documents

A finite number is written into a document as a literal that is read back as that
number, and what is not finite is written as null.

* `positionalLiteral` and `scientificLiteral` are what the two forms of text are
  read as.  For each of them there is a lemma on its text, one on its form and one
  on its value, which is that of the decimal it was made from.
* `standard_shortest`: the shortest decimal is zero itself or begins with another
  digit, which the form of a literal asks for.
* `ofBinary64_of_finite` and `ofBinary64_of_not_finite` are the two cases of a number
  in a document.
-/

namespace Recourse

namespace NumberLiteral

/-! ## Zeros among the digits -/

theorem ofDigits_eq (digits : List Char) : ofDigits digits = Nat.ofDigitChars 10 digits 0 := rfl

theorem ofDigits_append_zeros (digits : List Char) (k : Nat) :
    ofDigits (digits ++ List.replicate k '0') = ofDigits digits * 10 ^ k := by
  rw [ofDigits_eq, Nat.ofDigitChars_append, Nat.ofDigitChars_replicate_zero, Nat.mul_comm]
  rfl

theorem ofDigits_zeros_append (digits : List Char) (k : Nat) :
    ofDigits (List.replicate k '0' ++ digits) = ofDigits digits := by
  rw [ofDigits_eq, Nat.ofDigitChars_append, Nat.ofDigitChars_replicate_zero, Nat.mul_zero]
  rfl

theorem isDigit_of_mem_zeros {k : Nat} : ∀ c ∈ List.replicate k '0', c.isDigit = true := by
  intro c hc
  rw [(List.mem_replicate.1 hc).2]
  decide

end NumberLiteral

open NumberLiteral

namespace Decimal

/-! ## Literals -/

/-- The literal of a decimal with all its digits in place. -/
def positionalLiteral (negative : Bool) (d : Decimal) : NumberLiteral :=
  if 0 ≤ d.exponent then
    ⟨negative, d.digitChars ++ List.replicate d.exponent.toNat '0', ['0'], none⟩
  else if 0 < d.top then
    ⟨negative, d.digitChars.take d.top.toNat, d.digitChars.drop d.top.toNat, none⟩
  else ⟨negative, ['0'], List.replicate (-d.top).toNat '0' ++ d.digitChars, none⟩

/-- The literal of a decimal with one digit before the point. -/
def scientificLiteral (negative : Bool) (d : Decimal) : NumberLiteral :=
  ⟨negative, d.digitChars.take 1, d.digitChars.drop 1,
    some (decide (d.top - 1 < 0), Nat.toDigits 10 (d.top - 1).natAbs)⟩

/-- Whether the digits of a decimal can stand before the point: zero has no others
after it. -/
def Standard (d : Decimal) : Prop := d.digits ≠ 0 ∨ d = ⟨0, 0⟩

theorem digitChars_ne_nil (d : Decimal) : d.digitChars ≠ [] := Nat.toDigits_ne_nil

theorem isDigit_of_mem_digitChars {d : Decimal} : ∀ c ∈ d.digitChars, c.isDigit = true :=
  fun _ hc => Nat.isDigit_of_mem_toDigits (by decide) (by decide) hc

theorem ofDigits_digitChars (d : Decimal) : ofDigits d.digitChars = d.digits :=
  ofDigits_toDigits d.digits

/-! ## Their text -/

theorem toList_signText (negative : Bool) :
    (Binary64.signText negative).toList = if negative then ['-'] else [] := by
  cases negative <;> rfl

theorem toList_positionalLiteral (negative : Bool) (d : Decimal) :
    (Json.numberText (positionalLiteral negative d)).toList =
      (Binary64.signText negative).toList ++ (d.positional ".0").toList := by
  rw [Json.toList_numberText, toList_signText, positionalLiteral, positional]
  split
  case isTrue =>
    simp [Json.decimalChars, Json.exponentChars]
  case isFalse hexponent =>
    split
    case isTrue htop =>
      have hne : (d.digitChars.drop d.top.toNat) ≠ [] := by
        rw [Ne, List.drop_eq_nil_iff]
        simp only [top] at htop ⊢
        omega
      simp [Json.decimalChars, Json.exponentChars, hne]
    case isFalse =>
      simp [Json.decimalChars, Json.exponentChars, digitChars_ne_nil]

theorem toList_toString_int (i : Int) :
    (toString i).toList = (if i < 0 then ['-'] else []) ++ Nat.toDigits 10 i.natAbs := by
  cases i with
  | ofNat n =>
    have hsign : ¬Int.ofNat n < 0 := Int.not_lt.2 (Int.natCast_nonneg n)
    rw [if_neg hsign]
    exact Nat.toList_repr
  | negSucc n =>
    rw [if_pos (Int.negSucc_lt_zero n)]
    show ("-" ++ (n + 1).repr).toList = _
    rw [String.toList_append, Nat.toList_repr]
    rfl

theorem exponentChars_of_int (i : Int) :
    Json.exponentChars (some (decide (i < 0), Nat.toDigits 10 i.natAbs)) =
      'e' :: (toString i).toList := by
  rw [toList_toString_int]
  by_cases hsign : i < 0
  · rw [if_pos hsign, decide_eq_true hsign]
    rfl
  · rw [if_neg hsign, decide_eq_false hsign]
    rfl

theorem toList_scientificLiteral (negative : Bool) (d : Decimal) :
    (Json.numberText (scientificLiteral negative d)).toList =
      (Binary64.signText negative).toList ++ d.scientific.toList := by
  rw [Json.toList_numberText, toList_signText, scientificLiteral, scientific, exponentChars_of_int]
  generalize d.digitChars = digits
  match digits with
  | [] | [_] | _ :: _ :: _ => simp [Json.decimalChars]

/-! ## Their form -/

theorem whole_append {n : Nat} (hn : n ≠ 0) {more : List Char}
    (hmore : ∀ c ∈ more, c.isDigit = true) : Whole (Nat.toDigits 10 n ++ more) := by
  have hall : ∀ c ∈ Nat.toDigits 10 n ++ more, c.isDigit = true := by
    refine List.forall_mem_append.2 ⟨fun c hc => ?_, hmore⟩
    exact Nat.isDigit_of_mem_toDigits (by decide) (by decide) hc
  obtain ⟨first, rest, hdigits, hfirst⟩ := toDigits_cons hn
  rw [hdigits, List.cons_append] at hall ⊢
  exact .digits hfirst hall

theorem whole_take {n k : Nat} (hn : n ≠ 0) (hk : 0 < k) : Whole ((Nat.toDigits 10 n).take k) := by
  have hall : ∀ c ∈ (Nat.toDigits 10 n).take k, c.isDigit = true := by
    intro c hc
    exact Nat.isDigit_of_mem_toDigits (by decide) (by decide) (List.mem_of_mem_take hc)
  obtain ⟨first, rest, hdigits, hfirst⟩ := toDigits_cons hn
  obtain ⟨k, rfl⟩ := Nat.exists_eq_succ_of_ne_zero (Nat.ne_of_gt hk)
  rw [hdigits, List.take_succ_cons] at hall ⊢
  exact .digits hfirst hall

theorem written_positionalLiteral {d : Decimal} (hd : d.Standard) (negative : Bool) :
    (positionalLiteral negative d).Written := by
  have hplain : ∀ (sign : Bool) (digits : List Char), none = some (sign, digits) →
      digits ≠ [] ∧ ∀ c ∈ digits, c.isDigit = true := fun _ _ h => nomatch h
  rw [positionalLiteral]
  split
  case isTrue =>
    refine ⟨?_, isDigit_of_mem_zeros (k := 1), hplain⟩
    rcases hd with hdigits | rfl
    · exact whole_append hdigits isDigit_of_mem_zeros
    · exact .zero
  case isFalse hexponent =>
    have hdigits : d.digits ≠ 0 := by
      rcases hd with hdigits | rfl
      · exact hdigits
      · exact absurd (Int.le_refl 0) hexponent
    split
    case isTrue htop =>
      refine ⟨whole_take hdigits (by omega), fun c hc => ?_, hplain⟩
      exact isDigit_of_mem_digitChars c (List.mem_of_mem_drop hc)
    case isFalse =>
      exact ⟨.zero, List.forall_mem_append.2 ⟨isDigit_of_mem_zeros, isDigit_of_mem_digitChars⟩,
        hplain⟩

theorem written_scientificLiteral {d : Decimal} (hd : d.digits ≠ 0) (negative : Bool) :
    (scientificLiteral negative d).Written where
  whole := whole_take hd Nat.one_pos
  decimals := fun c hc => isDigit_of_mem_digitChars c (List.mem_of_mem_drop hc)
  power := by
    intro sign digits hpower
    obtain ⟨_, rfl⟩ := Prod.mk.inj (Option.some.inj hpower)
    refine ⟨Nat.toDigits_ne_nil, fun c hc => ?_⟩
    exact Nat.isDigit_of_mem_toDigits (by decide) (by decide) hc

/-! ## Their value -/

theorem ofDecimal_positionalLiteral (negative sign : Bool) (d : Decimal) :
    Binary64.ofDecimal sign (positionalLiteral negative d).decimal = Binary64.ofDecimal sign d := by
  rw [positionalLiteral]
  split
  case isTrue hexponent =>
    have hvalue : ofDigits ((d.digitChars ++ List.replicate d.exponent.toNat '0') ++ ['0']) =
        d.digits * 10 ^ (d.exponent.toNat + 1) := by
      rw [List.append_assoc, ← List.replicate_succ', ofDigits_append_zeros, ofDigits_digitChars]
    simp only [NumberLiteral.decimal, hvalue]
    rw [Binary64.ofDecimal_mul_pow]
    congr 2
    simp only [power, List.length_singleton]
    omega
  case isFalse hexponent =>
    split
    case isTrue htop =>
      simp only [NumberLiteral.decimal, List.take_append_drop, ofDigits_digitChars, power,
        List.length_drop]
      congr 2
      simp only [top] at htop ⊢
      omega
    case isFalse htop =>
      have hvalue : ofDigits (['0'] ++ (List.replicate (-d.top).toNat '0' ++ d.digitChars)) =
          d.digits := by
        rw [← List.append_assoc]
        exact (ofDigits_zeros_append d.digitChars (_ + 1)).trans (ofDigits_digitChars d)
      simp only [NumberLiteral.decimal, hvalue, power, List.length_append, List.length_replicate]
      congr 2
      simp only [top] at htop ⊢
      omega

theorem power_of_int (negative : Bool) (whole decimals : List Char) (i : Int) :
    power ⟨negative, whole, decimals, some (decide (i < 0), Nat.toDigits 10 i.natAbs)⟩ = i := by
  have hdigits := ofDigits_toDigits i.natAbs
  by_cases hsign : i < 0
  · rw [decide_eq_true hsign]
    show -(ofDigits (Nat.toDigits 10 i.natAbs) : Int) = i
    omega
  · rw [decide_eq_false hsign]
    show (ofDigits (Nat.toDigits 10 i.natAbs) : Int) = i
    omega

theorem decimal_scientificLiteral (negative : Bool) (d : Decimal) :
    (scientificLiteral negative d).decimal = d := by
  have hlength := List.length_pos_iff.2 (digitChars_ne_nil d)
  have hpower : (scientificLiteral negative d).power = d.top - 1 := power_of_int _ _ _ _
  rw [NumberLiteral.decimal, hpower]
  simp only [scientificLiteral, List.take_append_drop, ofDigits_digitChars, List.length_drop, top]
  congr 1
  omega

end Decimal

/-! ## Numbers -/

namespace Binary64

attribute [local irreducible] one overflow

/-- The literal that a number is written as. -/
def literal (negative : Bool) (d : Decimal) : NumberLiteral :=
  if d.digits ≠ 0 ∧ (d.top ≤ -5 ∨ 16 < d.top) then d.scientificLiteral negative
  else d.positionalLiteral negative

theorem toList_documented (negative : Bool) (units : Nat) (fits : Representable units) :
    (finite negative units fits).documented.toList =
      (Json.numberText (literal negative (shortest units))).toList := by
  rw [documented, pointedFrom, signed, String.toList_append, literal]
  split
  · rw [Decimal.toList_scientificLiteral]
  · rw [Decimal.toList_positionalLiteral]

/-- A decimal of no digits would be read as zero. -/
theorem standard_shortest {units : Nat} (fits : Representable units) :
    (shortest units).Standard := by
  by_cases hunits : units = 0
  · subst hunits
    exact Or.inr rfl
  · refine Or.inl fun hdigits => hunits ?_
    have hread := ofDecimal_shortest fits false
    rw [ofDecimal_eq, if_pos (Or.inl hdigits)] at hread
    have hzero : zero false = finite false 0 ⟨Nat.zero_lt_of_lt fits.1, Nat.dvd_zero _⟩ :=
      nearest_of_eq (nearestUnits_zero Nat.one_pos) _ false
    rw [hzero] at hread
    injection hread with _ heq
    exact heq.symm

theorem written_literal {d : Decimal} (hd : d.Standard) (negative : Bool) :
    (literal negative d).Written := by
  rw [literal]
  split
  case isTrue hdigits => exact Decimal.written_scientificLiteral hdigits.1 negative
  case isFalse => exact Decimal.written_positionalLiteral hd negative

theorem negative_literal (negative : Bool) (d : Decimal) :
    (literal negative d).negative = negative := by
  rw [literal]
  split
  · rfl
  · rw [Decimal.positionalLiteral]
    split
    · rfl
    · split <;> rfl

theorem binary64?_literal {units : Nat} (fits : Representable units) (negative : Bool) :
    (literal negative (shortest units)).binary64? = some (finite negative units fits) := by
  have hvalue : ofDecimal negative (literal negative (shortest units)).decimal =
      finite negative units fits := by
    rw [← ofDecimal_shortest fits negative, literal]
    split
    · rw [Decimal.decimal_scientificLiteral]
    · rw [Decimal.ofDecimal_positionalLiteral]
  rw [NumberLiteral.binary64?, negative_literal, hvalue]
  rfl

end Binary64

namespace Json

open Binary64

/-- A finite number is written as a literal that is read back as the number. -/
theorem ofBinary64_of_finite {x : Binary64} (h : x.isFinite = true) :
    ∃ n : NumberLiteral, ofBinary64 x = number n ∧ n.Written ∧ n.binary64? = some x := by
  match x with
  | .finite negative units fits =>
    have hwritten := written_literal (standard_shortest fits) negative
    have hread := readNumber?_numberText hwritten ends_nil
    rw [List.append_nil] at hread
    refine ⟨literal negative (shortest units), ?_, hwritten, binary64?_literal fits negative⟩
    rw [ofBinary64, toList_documented, hread]

theorem ofBinary64_of_not_finite {x : Binary64} (h : x.isFinite = false) : ofBinary64 x = null := by
  match x with
  | .nan => rfl
  | .infinite false => rfl
  | .infinite true => rfl
  | .finite .. => cases h

/-- Exponents begin further down in documents than in texts for debugging. -/
example :
    (ofBinary64 (ofDecimal false ⟨2, -5⟩)).render = "0.00002" ∧
      (ofBinary64 (ofDecimal false ⟨2, -6⟩)).render = "2e-6" ∧
      (ofDecimal false ⟨2, -5⟩).pointed = "2e-5" := by
  decide +kernel

end Json

end Recourse
