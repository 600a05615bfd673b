import Recourse.Proofs.Quoting

/-!
# Documents

A value that is written out is read back as that value, if its numbers have the
form of numbers and its strings need no character by number.

* `Written` is the form of a number literal, and `readNumber?_numberText` says that
  a literal of this form is read to its end, by one lemma for each part of it.
* `Stable` collects the values that are read back, and `Reads` says what is shown
  of each of them: with fuel for twice its text a reader gives the value and what
  comes after it.
* `reads_of_stable` is the induction over the value, and `read?_render` the result
  for a document that is one value.
* The literals of whole numbers are written in this form and stand for those
  numbers.
-/

namespace Recourse

namespace NumberLiteral

/-- The digits before the point: a zero alone, or digits that begin with another. -/
inductive Whole : List Char → Prop
  | zero : Whole ['0']
  | digits {first : Char} {rest : List Char} (hfirst : first ≠ '0')
      (hdigits : ∀ c ∈ first :: rest, c.isDigit = true) : Whole (first :: rest)

/-- The form of a number. -/
structure Written (n : NumberLiteral) : Prop where
  whole : Whole n.whole
  decimals : ∀ c ∈ n.decimals, c.isDigit = true
  power : ∀ sign digits, n.exponent = some (sign, digits) →
    digits ≠ [] ∧ ∀ c ∈ digits, c.isDigit = true

theorem Whole.exists_cons {digits : List Char} (h : Whole digits) :
    ∃ first rest, digits = first :: rest ∧ first.isDigit = true := by
  cases h with
  | zero => exact ⟨_, _, rfl, rfl⟩
  | digits _ hdigits => exact ⟨_, _, rfl, hdigits _ List.mem_cons_self⟩

end NumberLiteral

namespace Json

/-! ## Numbers -/

theorem ne_of_isDigit {c mark : Char} (hc : c.isDigit = true) (hmark : mark.isDigit = false) :
    c ≠ mark := by
  rintro rfl
  exact Bool.false_ne_true (hmark.symm.trans hc)

/-- Whether a number does not go on with these characters. -/
def Ends (rest : List Char) : Prop :=
  ∀ c ∈ rest.head?, c.isDigit = false ∧ c ≠ '.' ∧ c ≠ 'e' ∧ c ≠ 'E'

theorem ends_nil : Ends [] := fun _ hc => nomatch hc

theorem ends_cons {c : Char} {rest : List Char}
    (hc : c.isDigit = false ∧ c ≠ '.' ∧ c ≠ 'e' ∧ c ≠ 'E') : Ends (c :: rest) := by
  intro other hother
  rwa [← Option.some.inj hother]

/-- The point and the decimals as they are written. -/
def decimalChars (decimals : List Char) : List Char :=
  if decimals.isEmpty then [] else '.' :: decimals

/-- The exponent as it is written. -/
def exponentChars : Option (Bool × List Char) → List Char
  | none => []
  | some (true, digits) => 'e' :: '-' :: digits
  | some (false, digits) => 'e' :: digits

theorem toList_numberText (n : NumberLiteral) :
    (numberText n).toList =
      (if n.negative then ['-'] else []) ++ n.whole ++ decimalChars n.decimals ++
        exponentChars n.exponent := by
  obtain ⟨negative, whole, decimals, exponent⟩ := n
  have hsign : (if negative then "-" else "").toList = if negative then ['-'] else [] := by
    cases negative <;> simp
  have hdecimals : (if decimals.isEmpty then "" else "." ++ String.ofList decimals).toList =
      decimalChars decimals := by
    cases decimals <;> simp [decimalChars]
  simp only [numberText, String.toList_append, String.toList_ofList, hsign, hdecimals]
  match exponent with
  | none | some (true, _) | some (false, _) => simp [exponentChars]

theorem readDigits?_append {digits rest : List Char} (hne : digits ≠ [])
    (hdigits : ∀ c ∈ digits, c.isDigit = true) (hrest : ∀ c ∈ rest.head?, c.isDigit = false) :
    readDigits? (digits ++ rest) = some (digits, rest) := by
  have hstop : rest.takeWhile Char.isDigit = [] ∧ rest.dropWhile Char.isDigit = rest := by
    cases rest with
    | nil => exact ⟨rfl, rfl⟩
    | cons c rest =>
      have hc : ¬c.isDigit = true := Bool.eq_false_iff.1 (hrest c rfl)
      exact ⟨List.takeWhile_cons_of_neg hc, List.dropWhile_cons_of_neg hc⟩
  rw [readDigits?, List.takeWhile_append_of_pos hdigits, List.dropWhile_append_of_pos hdigits,
    hstop.1, hstop.2, List.append_nil]
  cases digits with
  | nil => exact absurd rfl hne
  | cons c digits => rfl

theorem readWhole?_append {whole rest : List Char} (hwhole : NumberLiteral.Whole whole)
    (hrest : ∀ c ∈ rest.head?, c.isDigit = false) :
    readWhole? (whole ++ rest) = some (whole, rest) := by
  cases hwhole with
  | zero => rfl
  | @digits first others hfirst hdigits =>
    have hread := readDigits?_append (List.cons_ne_nil _ _) hdigits hrest
    rw [← hread, List.cons_append, readWhole?]
    intro _ heq
    exact hfirst (List.cons.inj heq).1

theorem readDecimals?_append {decimals rest : List Char}
    (hdecimals : ∀ c ∈ decimals, c.isDigit = true)
    (hrest : ∀ c ∈ rest.head?, c.isDigit = false ∧ c ≠ '.') :
    readDecimals? (decimalChars decimals ++ rest) = some (decimals, rest) := by
  cases decimals with
  | nil =>
    show readDecimals? rest = some ([], rest)
    rw [readDecimals?]
    rintro _ rfl
    exact (hrest '.' rfl).2 rfl
  | cons c decimals =>
    exact readDigits?_append (List.cons_ne_nil _ _) hdecimals fun c hc => (hrest c hc).1

theorem readPower?_append {digits rest : List Char} (hne : digits ≠ [])
    (hdigits : ∀ c ∈ digits, c.isDigit = true) (hrest : ∀ c ∈ rest.head?, c.isDigit = false) :
    readPower? (digits ++ rest) = some ((false, digits), rest) := by
  have hread := readDigits?_append hne hdigits hrest
  obtain ⟨first, others, rfl⟩ := List.exists_cons_of_ne_nil hne
  have hfirst := hdigits first List.mem_cons_self
  rw [readPower?, hread, Option.map_some]
  · exact fun _ heq => ne_of_isDigit hfirst rfl (List.cons.inj heq).1
  · exact fun _ heq => ne_of_isDigit hfirst rfl (List.cons.inj heq).1

theorem readExponent?_append {exponent : Option (Bool × List Char)} {rest : List Char}
    (hexponent : ∀ sign digits, exponent = some (sign, digits) →
      digits ≠ [] ∧ ∀ c ∈ digits, c.isDigit = true)
    (hrest : Ends rest) :
    readExponent? (exponentChars exponent ++ rest) = some (exponent, rest) := by
  have hstop : ∀ c ∈ rest.head?, c.isDigit = false := fun c hc => (hrest c hc).1
  match exponent with
  | none =>
    show readExponent? rest = some (none, rest)
    rw [readExponent?]
    · rintro _ rfl
      exact (hrest 'e' rfl).2.2.1 rfl
    · rintro _ rfl
      exact (hrest 'E' rfl).2.2.2 rfl
  | some (true, digits) =>
    obtain ⟨hne, hdigits⟩ := hexponent true digits rfl
    show ((readDigits? (digits ++ rest)).map _).map _ = _
    rw [readDigits?_append hne hdigits hstop]
    rfl
  | some (false, digits) =>
    obtain ⟨hne, hdigits⟩ := hexponent false digits rfl
    show (readPower? (digits ++ rest)).map _ = _
    rw [readPower?_append hne hdigits hstop]
    rfl

theorem head?_exponentChars (exponent : Option (Bool × List Char)) {rest : List Char}
    (hrest : Ends rest) :
    ∀ c ∈ (exponentChars exponent ++ rest).head?, c.isDigit = false ∧ c ≠ '.' := by
  match exponent with
  | none => exact fun c hc => ⟨(hrest c hc).1, (hrest c hc).2.1⟩
  | some (true, digits) | some (false, digits) =>
    intro c hc
    rw [← Option.some.inj hc]
    decide

/-- A number is read up to where it ends. -/
theorem readMagnitude?_append {n : NumberLiteral} (hn : n.Written) {rest : List Char}
    (hrest : Ends rest) :
    readMagnitude? n.negative
        (n.whole ++ decimalChars n.decimals ++ exponentChars n.exponent ++ rest) =
      some (n, rest) := by
  have hexponent := head?_exponentChars n.exponent hrest
  have hdecimals : ∀ c ∈ (decimalChars n.decimals ++ (exponentChars n.exponent ++ rest)).head?,
      c.isDigit = false := by
    intro c hc
    rw [decimalChars] at hc
    split at hc
    case isTrue => exact (hexponent c hc).1
    case isFalse =>
      rw [← Option.some.inj hc]
      decide
  rw [List.append_assoc, List.append_assoc, readMagnitude?, readWhole?_append hn.whole hdecimals]
  show (readDecimals? _).bind _ = _
  rw [readDecimals?_append hn.decimals hexponent]
  show (readExponent? _).bind _ = _
  rw [readExponent?_append hn.power hrest]
  rfl

theorem readNumber?_numberText {n : NumberLiteral} (hn : n.Written) {rest : List Char}
    (hrest : Ends rest) : readNumber? ((numberText n).toList ++ rest) = some (n, rest) := by
  have hread := readMagnitude?_append hn hrest
  rw [toList_numberText]
  cases hsign : n.negative with
  | true =>
    rw [hsign] at hread
    exact hread
  | false =>
    rw [hsign] at hread
    obtain ⟨first, others, hwhole, hfirst⟩ := hn.whole.exists_cons
    rw [if_neg Bool.false_ne_true, List.nil_append, ← hread, hwhole]
    simp only [List.cons_append]
    rw [readNumber?]
    exact fun _ heq => ne_of_isDigit hfirst rfl (List.cons.inj heq).1


/-! ## Values -/

/-- Whether a string is read back as the pieces it is written from. -/
def Spelled (pieces : List Piece) : Prop :=
  ∀ piece ∈ pieces, fits piece = true ∧ readBack piece = piece

/-- A value that is read back as it is. -/
inductive Stable : Json → Prop
  | null : Stable .null
  | bool (value : Bool) : Stable (.bool value)
  | number {n : NumberLiteral} (hn : n.Written) : Stable (.number n)
  | string {pieces : List Piece} (hpieces : Spelled pieces) : Stable (.string pieces)
  | array {items : List Json} (hitems : ∀ item ∈ items, Stable item) : Stable (.array items)
  | object {fields : List (List Piece × Json)}
      (hnames : ∀ field ∈ fields, Spelled field.1) (hvalues : ∀ field ∈ fields, Stable field.2) :
      Stable (.object fields)

/-- What follows a value inside brackets does not belong to it. -/
theorem ends_mark {c : Char} (hc : c = ',' ∨ c = ']' ∨ c = '\x7d') (rest : List Char) :
    Ends (c :: rest) := by
  refine ends_cons ?_
  rcases hc with rfl | rfl | rfl <;> decide

/-- What is shown of a value: it begins with a character that opens one, and it is
read if there is fuel for twice its text. -/
structure Reads (v : Json) : Prop where
  opens : ∃ first others, v.render.toList = first :: others ∧ isBlank first = false ∧ first ≠ ']'
  reads : ∀ (fuel : Nat) (rest : List Char), 2 * v.render.toList.length ≤ fuel → Ends rest →
    readValue? fuel (v.render.toList ++ rest) = some (v, rest)

theorem readPieces?_spelled {pieces : List Piece} (h : Spelled pieces) (rest : List Char) :
    readPieces? (pieces.flatMap pieceChars ++ '"' :: rest) = some (pieces, rest) := by
  rw [readPieces?_flatMap fun piece hpiece => (h piece hpiece).1]
  have hsame : pieces.map readBack = pieces :=
    (List.map_congr_left fun piece hpiece => (h piece hpiece).2).trans (List.map_id' pieces)
  rw [hsame]

theorem exists_fuel {v : Json} {first : Char} {others : List Char} {fuel : Nat}
    (htext : v.render.toList = first :: others) (hfuel : 2 * v.render.toList.length ≤ fuel) :
    ∃ left, fuel = left + 1 ∧ 2 * others.length + 1 ≤ left := by
  rw [htext, List.length_cons] at hfuel
  exact ⟨fuel - 1, by omega, by omega⟩

/-- A value without brackets is read at once. -/
theorem reads_of_step {v : Json} {first : Char} {others : List Char}
    (htext : v.render.toList = first :: others) (hblank : isBlank first = false)
    (hbracket : first ≠ ']')
    (hread : ∀ (left : Nat) (rest : List Char), Ends rest →
      readValue? (left + 1) (first :: (others ++ rest)) = some (v, rest)) : Reads v := by
  refine ⟨⟨first, others, htext, hblank, hbracket⟩, ?_⟩
  intro fuel rest hfuel hrest
  obtain ⟨left, rfl, _⟩ := exists_fuel htext hfuel
  rw [htext, List.cons_append]
  exact hread left rest hrest

theorem reads_null : Reads .null := by
  have htext : null.render.toList = ['n', 'u', 'l', 'l'] := by
    rw [render]
    rfl
  exact reads_of_step htext (by decide) (by decide) fun _ _ _ => rfl

theorem reads_bool (value : Bool) : Reads (.bool value) := by
  cases value with
  | true =>
    have htext : (bool true).render.toList = ['t', 'r', 'u', 'e'] := by
      rw [render]
      rfl
    exact reads_of_step htext (by decide) (by decide) fun _ _ _ => rfl
  | false =>
    have htext : (bool false).render.toList = ['f', 'a', 'l', 's', 'e'] := by
      rw [render]
      rfl
    exact reads_of_step htext (by decide) (by decide) fun _ _ _ => rfl

theorem reads_string {pieces : List Piece} (hpieces : Spelled pieces) :
    Reads (.string pieces) := by
  have htext : (string pieces).render.toList =
      '"' :: (pieces.flatMap pieceChars ++ ['"']) := by
    rw [render, String.toList_ofList]
    rfl
  refine reads_of_step htext (by decide) (by decide) fun left rest _ => ?_
  rw [List.append_assoc, List.singleton_append, readValue?, readPieces?_spelled hpieces]
  rfl

theorem exists_numberText {n : NumberLiteral} (hn : n.Written) :
    ∃ first others, (numberText n).toList = first :: others ∧
      (first = '-' ∨ first.isDigit = true) := by
  rw [toList_numberText]
  obtain ⟨first, others, hwhole, hfirst⟩ := hn.whole.exists_cons
  cases n.negative with
  | true => exact ⟨_, _, rfl, Or.inl rfl⟩
  | false =>
    rw [hwhole]
    exact ⟨_, _, rfl, Or.inr hfirst⟩

theorem reads_number {n : NumberLiteral} (hn : n.Written) : Reads (.number n) := by
  obtain ⟨first, others, hchars, hfirst⟩ := exists_numberText hn
  have htext : (number n).render.toList = first :: others := by rw [render, hchars]
  have hdistinct : ∀ c : Char, c ≠ '-' → c.isDigit = false → first ≠ c := by
    intro c hsign hdigit
    rcases hfirst with rfl | hfirst
    · exact hsign.symm
    · exact ne_of_isDigit hfirst hdigit
  have hblank : isBlank first = false := by
    simp only [isBlank, Bool.or_eq_false_iff, beq_eq_false_iff_ne]
    refine ⟨⟨⟨?_, ?_⟩, ?_⟩, ?_⟩ <;> exact hdistinct _ (by decide) (by decide)
  have hbracket : first ≠ ']' := hdistinct ']' (by decide) (by decide)
  refine reads_of_step htext hblank hbracket fun left rest hrest => ?_
  have hread := readNumber?_numberText hn hrest
  rw [hchars, List.cons_append] at hread
  rw [readValue?, hread, Option.map_some]
  -- The readers of the other values begin with characters of their own.
  all_goals
    intro _ heq
    exact hdistinct _ (by decide) (by decide) (List.cons.inj heq).1

/-! ## Arrays -/

theorem skipBlanks_cons {c : Char} (hc : isBlank c = false) (rest : List Char) :
    skipBlanks (c :: rest) = c :: rest :=
  List.dropWhile_cons_of_neg (Bool.eq_false_iff.1 hc)

/-- The items of an array as they are written. -/
def itemChars (items : List Json) : List Char := (",".intercalate (renderItems items)).toList

theorem itemChars_singleton (item : Json) : itemChars [item] = item.render.toList := by
  rw [itemChars, renderItems, renderItems, String.intercalate_singleton]

theorem itemChars_cons_cons (item next : Json) (items : List Json) :
    itemChars (item :: next :: items) = item.render.toList ++ ',' :: itemChars (next :: items) := by
  rw [itemChars, renderItems, renderItems, String.intercalate_cons_cons, String.toList_append,
    String.toList_append, ← renderItems, List.append_assoc]
  rfl

theorem itemChars_opens {item : Json} (hitem : Reads item) (items : List Json) :
    ∃ first others, itemChars (item :: items) = first :: others ∧ isBlank first = false ∧
      first ≠ ']' := by
  obtain ⟨first, others, htext, hopens⟩ := hitem.opens
  cases items with
  | nil => exact ⟨first, others, by rw [itemChars_singleton, htext], hopens⟩
  | cons next items => exact ⟨first, _, by rw [itemChars_cons_cons, htext]; rfl, hopens⟩

theorem readItems?_itemChars {items : List Json} (hitems : ∀ item ∈ items, Reads item)
    (hne : items ≠ []) (fuel : Nat) (hfuel : 2 * (itemChars items).length + 1 ≤ fuel)
    (rest : List Char) :
    readItems? fuel (itemChars items ++ ']' :: rest) = some (items, rest) := by
  induction items generalizing fuel with
  | nil => exact absurd rfl hne
  | cons item items ih =>
    obtain ⟨hitem, hothers⟩ := List.forall_mem_cons.1 hitems
    obtain ⟨left, rfl⟩ : ∃ left, fuel = left + 1 := ⟨fuel - 1, by omega⟩
    cases items with
    | nil =>
      rw [itemChars_singleton] at hfuel ⊢
      rw [readItems?, hitem.reads left _ (by omega) (ends_mark (Or.inr (Or.inl rfl)) _)]
      rfl
    | cons next items =>
      rw [itemChars_cons_cons, List.length_append, List.length_cons] at hfuel
      have hread := ih hothers (List.cons_ne_nil _ _) left (by omega)
      obtain ⟨first, others, hchars, hblank, _⟩ :=
        itemChars_opens (hothers next List.mem_cons_self) items
      have hskip : skipBlanks (itemChars (next :: items) ++ ']' :: rest) =
          itemChars (next :: items) ++ ']' :: rest := by
        rw [hchars, List.cons_append, skipBlanks_cons hblank]
      rw [itemChars_cons_cons, List.append_assoc, List.cons_append, readItems?,
        hitem.reads left _ (by omega) (ends_mark (Or.inl rfl) _)]
      show (readItems? left (skipBlanks (itemChars (next :: items) ++ ']' :: rest))).map _ = _
      rw [hskip, hread]
      rfl

theorem reads_array {items : List Json} (hitems : ∀ item ∈ items, Reads item) :
    Reads (.array items) := by
  have htext : (array items).render.toList = '[' :: (itemChars items ++ [']']) := by
    rw [render, String.toList_append, String.toList_append, List.append_assoc]
    rfl
  refine ⟨⟨'[', _, htext, by decide, by decide⟩, ?_⟩
  intro fuel rest hfuel _
  obtain ⟨left, rfl, hleft⟩ := exists_fuel htext hfuel
  rw [htext, List.cons_append, List.append_assoc, List.singleton_append]
  cases items with
  | nil => rfl
  | cons item items =>
    rw [List.length_append] at hleft
    have hread := readItems?_itemChars hitems (List.cons_ne_nil _ _) left (by omega) rest
    obtain ⟨first, others, hchars, hblank, hbracket⟩ :=
      itemChars_opens (hitems item List.mem_cons_self) items
    rw [hchars, List.cons_append] at hread ⊢
    rw [readValue?, skipBlanks_cons hblank]
    split
    case h_1 _ heq => exact absurd (List.cons.inj heq).1 hbracket
    case h_2 => rw [hread, Option.map_some]

/-! ## Objects -/

/-- The fields of an object as they are written. -/
def fieldChars (fields : List (List Piece × Json)) : List Char :=
  (",".intercalate (renderFields fields)).toList

theorem fieldChars_singleton (name : List Piece) (value : Json) :
    fieldChars [(name, value)] =
      '"' :: (name.flatMap pieceChars ++ '"' :: ':' :: value.render.toList) := by
  rw [fieldChars, renderFields, renderFields, String.intercalate_singleton]
  simp [stringChars]

theorem fieldChars_cons_cons (name : List Piece) (value : Json)
    (next : List Piece × Json) (fields : List (List Piece × Json)) :
    fieldChars ((name, value) :: next :: fields) =
      '"' :: (name.flatMap pieceChars ++
        '"' :: ':' :: (value.render.toList ++ ',' :: fieldChars (next :: fields))) := by
  obtain ⟨nextName, nextValue⟩ := next
  rw [fieldChars, renderFields, renderFields, String.intercalate_cons_cons, ← renderFields]
  simp [stringChars, fieldChars]

theorem fieldChars_opens (field : List Piece × Json) (fields : List (List Piece × Json)) :
    ∃ others, fieldChars (field :: fields) = '"' :: others := by
  obtain ⟨name, value⟩ := field
  cases fields with
  | nil => exact ⟨_, fieldChars_singleton name value⟩
  | cons next fields => exact ⟨_, fieldChars_cons_cons name value next fields⟩

/-- A field is read up to what follows its value, which says whether there are
others. -/
theorem readFields?_field {name : List Piece} {value : Json} (hname : Spelled name)
    (hvalue : Reads value) (fuel : Nat) (hfuel : 2 * value.render.toList.length ≤ fuel)
    (rest : List Char) :
    readFields? (fuel + 1) ('"' :: (name.flatMap pieceChars ++
        '"' :: ':' :: (value.render.toList ++ '\x7d' :: rest))) = some ([(name, value)], rest) ∧
      readFields? (fuel + 1) ('"' :: (name.flatMap pieceChars ++
          '"' :: ':' :: (value.render.toList ++ ',' :: rest))) =
        (readFields? fuel (skipBlanks rest)).map fun read =>
          ((name, value) :: read.1, read.2) := by
  obtain ⟨first, others, htext, hblank, _⟩ := hvalue.opens
  have hskip : ∀ after, skipBlanks (value.render.toList ++ after) =
      value.render.toList ++ after := by
    intro after
    rw [htext, List.cons_append, skipBlanks_cons hblank]
  have hcolon : ∀ after, skipBlanks (':' :: after) = ':' :: after :=
    skipBlanks_cons (by decide)
  constructor
  · have hmark : skipBlanks ('\x7d' :: rest) = '\x7d' :: rest := skipBlanks_cons (by decide) rest
    have hread := hvalue.reads fuel ('\x7d' :: rest) hfuel (ends_mark (Or.inr (Or.inr rfl)) rest)
    rw [readFields?, readPieces?_spelled hname]
    simp only [hcolon, hskip, hread, hmark]
  · have hmark : skipBlanks (',' :: rest) = ',' :: rest := skipBlanks_cons (by decide) rest
    have hread := hvalue.reads fuel (',' :: rest) hfuel (ends_mark (Or.inl rfl) rest)
    rw [readFields?, readPieces?_spelled hname]
    simp only [hcolon, hskip, hread, hmark]

theorem readFields?_fieldChars {fields : List (List Piece × Json)}
    (hnames : ∀ field ∈ fields, Spelled field.1) (hvalues : ∀ field ∈ fields, Reads field.2)
    (hne : fields ≠ []) (fuel : Nat) (hfuel : 2 * (fieldChars fields).length + 1 ≤ fuel)
    (rest : List Char) :
    readFields? fuel (fieldChars fields ++ '\x7d' :: rest) = some (fields, rest) := by
  induction fields generalizing fuel with
  | nil => exact absurd rfl hne
  | cons field fields ih =>
    obtain ⟨name, value⟩ := field
    obtain ⟨hname, hnames⟩ := List.forall_mem_cons.1 hnames
    obtain ⟨hvalue, hvalues⟩ := List.forall_mem_cons.1 hvalues
    change Reads value at hvalue
    obtain ⟨left, rfl⟩ : ∃ left, fuel = left + 1 := ⟨fuel - 1, by omega⟩
    cases fields with
    | nil =>
      rw [fieldChars_singleton] at hfuel ⊢
      simp only [List.length_append, List.length_cons] at hfuel
      have hread := (readFields?_field hname hvalue left (by omega) rest).1
      simpa only [List.cons_append, List.append_assoc] using hread
    | cons next fields =>
      rw [fieldChars_cons_cons] at hfuel ⊢
      simp only [List.length_append, List.length_cons] at hfuel
      have hrest := ih hnames hvalues (List.cons_ne_nil _ _) left (by omega)
      have hread := (readFields?_field hname hvalue left (by omega)
        (fieldChars (next :: fields) ++ '\x7d' :: rest)).2
      obtain ⟨others, hchars⟩ := fieldChars_opens next fields
      have hskip : skipBlanks (fieldChars (next :: fields) ++ '\x7d' :: rest) =
          fieldChars (next :: fields) ++ '\x7d' :: rest := by
        rw [hchars, List.cons_append, skipBlanks_cons (by decide)]
      rw [hskip, hrest, Option.map_some] at hread
      simpa only [List.cons_append, List.append_assoc] using hread

theorem reads_object {fields : List (List Piece × Json)}
    (hnames : ∀ field ∈ fields, Spelled field.1) (hvalues : ∀ field ∈ fields, Reads field.2) :
    Reads (.object fields) := by
  have htext : (object fields).render.toList = '\x7b' :: (fieldChars fields ++ ['\x7d']) := by
    rw [render, String.toList_append, String.toList_append, List.append_assoc]
    rfl
  refine ⟨⟨'\x7b', _, htext, by decide, by decide⟩, ?_⟩
  intro fuel rest hfuel _
  obtain ⟨left, rfl, hleft⟩ := exists_fuel htext hfuel
  rw [htext, List.cons_append, List.append_assoc, List.singleton_append]
  cases fields with
  | nil => rfl
  | cons field fields =>
    rw [List.length_append] at hleft
    have hread := readFields?_fieldChars hnames hvalues (List.cons_ne_nil _ _) left
      (by omega) rest
    obtain ⟨others, hchars⟩ := fieldChars_opens field fields
    rw [hchars, List.cons_append] at hread ⊢
    rw [readValue?, skipBlanks_cons (by decide)]
    show (readFields? left _).map _ = _
    rw [hread, Option.map_some]

/-! ## Documents -/

theorem reads_of_stable {v : Json} (h : Stable v) : Reads v := by
  induction h with
  | null => exact reads_null
  | bool value => exact reads_bool value
  | number hn => exact reads_number hn
  | string hpieces => exact reads_string hpieces
  | array _ ih => exact reads_array ih
  | object hnames _ ih => exact reads_object hnames ih

/-- A document that was written is read back as it was. -/
theorem read?_render {v : Json} (h : Stable v) : read? v.render = some v := by
  have hreads := reads_of_stable h
  obtain ⟨first, others, htext, hblank, _⟩ := hreads.opens
  rw [← String.ofList_toList (s := v.render)]
  refine read?_of_readValue? (fun c hc => ?_) ?_
  · rw [htext] at hc
    rwa [← Option.some.inj hc]
  · have hread := hreads.reads (2 * v.render.toList.length + 2) [] (by omega) ends_nil
    rwa [List.append_nil] at hread

/-- Whether no character of a text is written by number. -/
def unnumbered (s : String) : Bool := s.toList.all fun c => !numbered c

theorem spelled_ofText {s : String} (hs : unnumbered s = true) : Spelled (Piece.ofText s) := by
  intro piece hpiece
  obtain ⟨c, hc, rfl⟩ := List.mem_map.1 hpiece
  have hnumbered : numbered c = false := by simpa using List.all_eq_true.1 hs c hc
  refine ⟨rfl, ?_⟩
  rw [readBack, hnumbered, if_neg Bool.false_ne_true]

theorem stable_record {fields : List (String × Json)}
    (hnames : ∀ name ∈ fields.map Prod.fst, unnumbered name = true)
    (hvalues : ∀ field ∈ fields, Stable field.2) : Stable (record fields) := by
  refine .object ?_ ?_
  · intro field hfield
    obtain ⟨source, hsource, rfl⟩ := List.mem_map.1 hfield
    exact spelled_ofText (hnames source.1 (List.mem_map_of_mem hsource))
  · intro field hfield
    obtain ⟨source, hsource, rfl⟩ := List.mem_map.1 hfield
    exact hvalues source hsource

end Json

/-! ## Digits -/

namespace NumberLiteral

theorem ofDigits_toDigits (n : Nat) : ofDigits (Nat.toDigits 10 n) = n :=
  Nat.ofDigitChars_ten_toDigits

/-- A number other than zero has no zeros in front. -/
theorem toDigits_cons {n : Nat} (hn : n ≠ 0) :
    ∃ first rest, Nat.toDigits 10 n = first :: rest ∧ first ≠ '0' := by
  induction n using Nat.strongRecOn with
  | ind n ih =>
    rcases Nat.lt_or_ge n 10 with hshort | hlong
    · refine ⟨_, _, Nat.toDigits_of_lt_base hshort, ?_⟩
      rwa [Ne, Nat.digitChar_eq_zero]
    · obtain ⟨first, rest, hdigits, hfirst⟩ := ih (n / 10) (by omega) (by omega)
      refine ⟨first, rest ++ [(n % 10).digitChar], ?_, hfirst⟩
      rw [Nat.toDigits_of_base_le (by decide) hlong, hdigits, List.cons_append]

theorem whole_toDigits (n : Nat) : Whole (Nat.toDigits 10 n) := by
  by_cases hzero : n = 0
  · rw [hzero]
    exact .zero
  · have hall : ∀ c ∈ Nat.toDigits 10 n, c.isDigit = true :=
      fun _ hc => Nat.isDigit_of_mem_toDigits (by decide) (by decide) hc
    obtain ⟨first, rest, hdigits, hfirst⟩ := toDigits_cons hzero
    rw [hdigits] at hall ⊢
    exact .digits hfirst hall

theorem written_ofNat (n : Nat) : (ofNat n).Written where
  whole := whole_toDigits n
  decimals := fun _ hc => absurd hc List.not_mem_nil
  power := fun _ _ h => nomatch h

end NumberLiteral

end Recourse
