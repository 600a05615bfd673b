import Recourse.Proofs.Registrations
import Recourse.Wire

/-!
# Texts inside quotes

A text that is written as a JSON string is read back as it was, whatever its
characters.

* `Escape` lists the ways in which a character is written, and for each of them
  there is a lemma on what it is read as: `readPieces?_letter`,
  `readPieces?_unitEscape` and `readPieces?_plain`.
* `readPieces?_flatMap` is the induction over the pieces of a string.  A character
  that is written by number comes back as a number, which is what `readBack`
  says, and `join?_readBack` that this is no other text.
* The last part is about codes, which are sent as JSON strings, and about the
  errors that are found for them.
-/

namespace Recourse

namespace Json

/-! ## Reading what is written -/

theorem hexDigit?_hexChar (n : Nat) : hexDigit? (hexChar n) = some (n % 16) := by
  have hall : ∀ digit < 16, hexDigit? (Nat.digitChar digit) = some digit := by decide
  exact hall _ (Nat.mod_lt n (by decide))

theorem hexUnit?_hexChar {unit : Nat} (hunit : unit < 0x10000) :
    hexUnit? (hexChar (unit / 4096)) (hexChar (unit / 256)) (hexChar (unit / 16)) (hexChar unit) =
      some unit := by
  simp only [hexUnit?, hexDigit?_hexChar]
  refine congrArg some ?_
  omega

theorem readPieces?_unitEscape {unit : Nat} (hunit : unit < 0x10000) (rest : List Char) :
    readPieces? (unitEscape unit ++ rest) =
      (readPieces? rest).map fun (pieces, rest) => (.unit unit :: pieces, rest) := by
  simp only [unitEscape, List.cons_append, List.nil_append, readPieces?, hexUnit?_hexChar hunit]

theorem readPieces?_letter {letter c : Char} (hletter : escaped? letter = some c)
    (rest : List Char) :
    readPieces? ('\\' :: letter :: rest) =
      (readPieces? rest).map fun (pieces, rest) => (.char c :: pieces, rest) := by
  have hnumber : letter ≠ 'u' := by
    rintro rfl
    cases hletter
  rw [readPieces?, hletter]
  intro _ _ _ _ _ heq
  exact absurd heq hnumber

theorem readPieces?_plain {c : Char} (hquote : c ≠ '"') (hslash : c ≠ '\\')
    (hraw : 0x20 ≤ c.toNat) (rest : List Char) :
    readPieces? (c :: rest) =
      (readPieces? rest).map fun (pieces, rest) => (.char c :: pieces, rest) := by
  have hallowed : ¬(c = '\\' ∨ c.toNat < 0x20) := not_or.2 ⟨hslash, Nat.not_lt.2 hraw⟩
  rw [readPieces?, if_neg hallowed]
  · exact hquote
  · intro _ _ _ _ _ heq
    exact absurd heq hslash
  · intro _ _ heq
    exact absurd heq hslash

/-! ## The ways of writing a character -/

/-- Whether a character has no other escape than its number. -/
def numbered (c : Char) : Bool :=
  c.toNat < 0x20 && !(['\x08', '\x0c', '\n', '\r', '\t'].contains c)

/-- A way of writing a character inside quotes. -/
inductive Escape (c : Char) : List Char → Prop
  | letter {letter : Char} (hletter : escaped? letter = some c) (hnumbered : numbered c = false) :
      Escape c ['\\', letter]
  | number (hnumbered : numbered c = true) : Escape c (unitEscape c.toNat)
  | plain (hquote : c ≠ '"') (hslash : c ≠ '\\') (hraw : 0x20 ≤ c.toNat) : Escape c [c]

theorem lt_of_numbered {c : Char} (h : numbered c = true) : c.toNat < 0x20 := by
  rw [numbered, Bool.and_eq_true, decide_eq_true_eq] at h
  exact h.1

theorem numbered_eq_false {c : Char} (hraw : 0x20 ≤ c.toNat) : numbered c = false := by
  rw [Bool.eq_false_iff]
  intro hnumbered
  exact Nat.not_lt.2 hraw (lt_of_numbered hnumbered)

theorem escape_escapeChar (c : Char) : Escape c (escapeChar c) := by
  unfold escapeChar
  split
  case h_8 hquote hslash hbackspace hfeed hnewline hreturn htab =>
    split
    case isTrue hcontrol =>
      refine .number ?_
      simpa [numbered, hcontrol] using ⟨hbackspace, hfeed, hnewline, hreturn, htab⟩
    case isFalse hraw => exact .plain hquote hslash (Nat.le_of_not_lt hraw)
  all_goals exact .letter rfl rfl

/-- What needs no escape stands for itself. -/
theorem escapeChar_of_plain {c : Char} (hquote : c ≠ '"') (hslash : c ≠ '\\')
    (hraw : 0x20 ≤ c.toNat) : escapeChar c = [c] := by
  unfold escapeChar
  split
  case h_1 => exact absurd rfl hquote
  case h_2 => exact absurd rfl hslash
  case h_8 => exact if_neg (Nat.not_lt.2 hraw)
  all_goals exact absurd hraw (by decide)

/-! ## Strings -/

/-- The piece that a piece is read back as. -/
def readBack : Piece → Piece
  | .char c => if numbered c then .unit c.toNat else .char c
  | .unit value => .unit value

/-- Whether a piece has four hexadecimal digits if it is written by number. -/
def fits : Piece → Bool
  | .char _ => true
  | .unit value => value < 0x10000

theorem readPieces?_pieceChars {piece : Piece} (hfits : fits piece = true) (rest : List Char) :
    readPieces? (pieceChars piece ++ rest) =
      (readPieces? rest).map fun (pieces, rest) => (readBack piece :: pieces, rest) := by
  cases piece with
  | unit value => exact readPieces?_unitEscape (of_decide_eq_true hfits) rest
  | char c =>
    show readPieces? (escapeChar c ++ rest) = _
    have hescape := escape_escapeChar c
    generalize escapeChar c = chars at hescape
    cases hescape with
    | letter hletter hnumbered =>
      rw [readBack, hnumbered, if_neg Bool.false_ne_true]
      exact readPieces?_letter hletter rest
    | number hnumbered =>
      have hunit := lt_of_numbered hnumbered
      rw [readBack, hnumbered, if_pos rfl]
      exact readPieces?_unitEscape (by omega) rest
    | plain hquote hslash hraw =>
      rw [readBack, numbered_eq_false hraw, if_neg Bool.false_ne_true]
      exact readPieces?_plain hquote hslash hraw rest

/-- A string is read up to its closing quote. -/
theorem readPieces?_flatMap {pieces : List Piece} (hfits : ∀ piece ∈ pieces, fits piece = true)
    (rest : List Char) :
    readPieces? (pieces.flatMap pieceChars ++ '"' :: rest) =
      some (pieces.map readBack, rest) := by
  induction pieces with
  | nil => rfl
  | cons piece pieces ih =>
    obtain ⟨hpiece, hpieces⟩ := List.forall_mem_cons.1 hfits
    rw [List.flatMap_cons, List.append_assoc, readPieces?_pieceChars hpiece, ih hpieces]
    rfl

/-- Control characters are no halves of surrogate pairs. -/
theorem join?_readBack (cs : List Char) :
    Piece.join? ((cs.map Piece.char).map readBack) = some cs := by
  induction cs with
  | nil => rfl
  | cons c cs ih =>
    rw [List.map_cons, List.map_cons, readBack]
    split
    case isTrue hnumbered =>
      have hcontrol := lt_of_numbered hnumbered
      have hhigh : Piece.isHigh c.toNat = false := by
        rw [Piece.isHigh, Bool.and_eq_false_iff, decide_eq_false_iff_not]
        omega
      have hlow : Piece.isLow c.toNat = false := by
        rw [Piece.isLow, Bool.and_eq_false_iff, decide_eq_false_iff_not]
        omega
      rw [Piece.join?.eq_def]
      simp only [hhigh, hlow, ih, Bool.false_eq_true, if_false, Option.map_some, Char.ofNat_toNat]
    case isFalse => rw [Piece.join?, ih, Option.map_some]

/-- A document that begins with no blank is read if its value is. -/
theorem read?_of_readValue? {chars : List Char} {value : Json}
    (hhead : ∀ c ∈ chars.head?, isBlank c = false)
    (hvalue : readValue? (2 * chars.length + 2) chars = some (value, [])) :
    read? (String.ofList chars) = some value := by
  have hskip : skipBlanks chars = chars := by
    cases chars with
    | nil => rfl
    | cons c chars => exact List.dropWhile_cons_of_neg (by simpa using hhead c rfl)
  rw [read?, String.toList_ofList, hskip, hvalue]
  rfl

/-- The JSON text of a text is read back as a string that spells it. -/
theorem text?_read?_quoted (s : String) : (read? (quoted s)).bind text? = some s := by
  have hpieces : readPieces? ((Piece.ofText s).flatMap pieceChars ++ '"' :: []) =
      some ((Piece.ofText s).map readBack, []) := by
    refine readPieces?_flatMap ?_ []
    intro piece hpiece
    obtain ⟨c, _, rfl⟩ := List.mem_map.1 hpiece
    rfl
  have hread : read? (quoted s) = some (string ((Piece.ofText s).map readBack)) := by
    refine read?_of_readValue? (fun c hc => ?_) ?_
    · obtain rfl := Option.some.inj hc
      rfl
    · rw [stringChars, List.cons_append, readValue?, hpieces]
      rfl
  rw [hread]
  show (Piece.join? _).map String.ofList = some s
  rw [Piece.ofText, join?_readBack, Option.map_some, String.ofList_toList]

/-- A text of characters that need no escape is written as it is. -/
theorem quoted_of_plain {s : String}
    (hplain : ∀ c ∈ s.toList, c ≠ '"' ∧ c ≠ '\\' ∧ 0x20 ≤ c.toNat) :
    quoted s = "\"" ++ s ++ "\"" := by
  have hchars : (Piece.ofText s).flatMap pieceChars = s.toList := by
    rw [Piece.ofText, List.flatMap_map]
    refine (List.flatMap_congr fun c hc => ?_).trans (List.flatMap_singleton' _)
    obtain ⟨hquote, hslash, hraw⟩ := hplain c hc
    exact escapeChar_of_plain hquote hslash hraw
  rw [quoted, stringChars, hchars, ← String.toList_inj]
  simp

end Json

/-! ## Codes -/

theorem Code.plain_of_isCanonicalChar {c : Char} (h : isCanonicalChar c = true) :
    c ≠ '"' ∧ c ≠ '\\' ∧ 0x20 ≤ c.toNat := by
  rw [isCanonicalChar, Bool.or_eq_true, Bool.or_eq_true, beq_iff_eq] at h
  refine ⟨?_, ?_, ?_⟩
  · rintro rfl
    revert h
    decide
  · rintro rfl
    revert h
    decide
  · rcases h with (hlower | hdigit) | rfl
    · have hletter : 'a'.val ≤ c.val := of_decide_eq_true (Bool.and_eq_true_iff.1 hlower).1
      exact Nat.le_trans (by decide) (UInt32.le_iff_toNat_le.1 hletter)
    · have hnumeral : '0'.val ≤ c.val := of_decide_eq_true (Bool.and_eq_true_iff.1 hdigit).1
      exact Nat.le_trans (by decide) (UInt32.le_iff_toNat_le.1 hnumeral)
    · decide

namespace Registry

theorem find?_reverse_eq_none {errors : List CodedError} {code : Code}
    (h : ∀ other ∈ errors, other.code ≠ code) : errors.reverse.find? (·.code == code) = none := by
  rw [List.find?_eq_none]
  intro other hother
  rw [beq_iff_eq]
  exact h other (List.mem_reverse.1 hother)

/-- The last error with its code is the one that is found from the end. -/
theorem find?_of_lastOf {errors : List CodedError} {e : CodedError} (h : LastOf errors e) :
    errors.reverse.find? (·.code == e.code) = some e := by
  obtain ⟨earlier, later, rfl, hlater⟩ := h
  rw [List.reverse_append, List.reverse_cons, List.append_assoc, List.find?_append,
    find?_reverse_eq_none hlater, Option.none_or, List.singleton_append]
  exact List.find?_cons_of_pos (beq_self_eq_true e.code)

end Registry

namespace Wire

theorem readCode?_codeText (code : Code) : readCode? (codeText code) = some code := by
  have hread : readCode? (codeText code) =
      ((Json.read? (Json.quoted code.text)).bind Json.text?).map Code.mk := by
    rw [Option.map_bind]
    rfl
  rw [hread, Json.text?_read?_quoted]
  rfl

theorem readError?_errorText (r : Registry) (e : CodedError) :
    readError? r (errorText e) = some (r.resolve e.code) := by
  have hread : readError? r (errorText e) = (readCode? (codeText e.code)).map r.resolve := by
    rw [readCode?, Option.map_bind]
    rfl
  rw [hread, readCode?_codeText, Option.map_some]

theorem resolve_eq (r : Registry) (code : Code) :
    r.resolve code = (r.find? code).getD Builtin.generalFailure := by
  rw [Registry.resolve, Registry.lookup]
  cases r.find? code <;> rfl

theorem codeText_of_isCanonical {code : Code} (h : code.isCanonical = true) :
    codeText code = "\"" ++ code.text ++ "\"" := by
  rw [Code.isCanonical, Bool.and_eq_true] at h
  exact Json.quoted_of_plain fun c hc =>
    Code.plain_of_isCanonicalChar (List.all_eq_true.1 h.2 c hc)

/-- Every code is read back from its JSON text as it was, and canonical codes are
written as they are.  An error is written as its code, so that errors of the same
code have the same text and no others have.

Whatever the state of a registry, the text of an error is read as what the registry
has for its code, which is the general failure if it has nothing.  After any history
that is the last error that was registered, with its own message and cause. -/
theorem texts_read_back :
    (∀ code : Code, readCode? (codeText code) = some code) ∧
    (∀ code : Code, code.isCanonical = true → codeText code = "\"" ++ code.text ++ "\"") ∧
    (∀ a b : CodedError, errorText a = errorText b ↔ a.code = b.code) ∧
    (∀ (r : Registry) (e : CodedError),
      readError? r (errorText e) = some (r.resolve e.code) ∧
        r.resolve e.code = (r.find? e.code).getD Builtin.generalFailure) ∧
    ∀ (builtins : Bool) (history : List Registry.Request) (e : CodedError),
      let receiver := ((Registry.fresh builtins).run history).1
      let registered := Registry.preset builtins ++ history.flatMap Registry.Request.errors
      (∀ last, Registry.LastOf registered last → last.code = e.code →
        readError? receiver (errorText e) = some last) ∧
      ((∀ other ∈ registered, other.code ≠ e.code) →
        readError? receiver (errorText e) = some Builtin.generalFailure) := by
  refine ⟨readCode?_codeText, fun _ => codeText_of_isCanonical, ?_,
    fun r e => ⟨readError?_errorText r e, resolve_eq r e.code⟩, ?_⟩
  · intro a b
    constructor
    · intro htexts
      have hcodes := congrArg readCode? htexts
      exact Option.some.inj
        ((readCode?_codeText a.code).symm.trans (hcodes.trans (readCode?_codeText b.code)))
    · exact congrArg codeText
  · intro builtins history e receiver registered
    have hfind : receiver.find? e.code = registered.reverse.find? (·.code == e.code) := by
      rw [Registry.find?_run, Registry.find?_fresh, List.reverse_append, List.find?_append]
    rw [readError?_errorText, resolve_eq, hfind]
    constructor
    · intro last hlast hcode
      rw [← hcode, Registry.find?_of_lastOf hlast]
      rfl
    · intro hothers
      rw [Registry.find?_reverse_eq_none hothers]
      rfl

/-- A receiver that has registered a code twice knows the second error. -/
theorem replacedText_reads_back :
    let receiver := ((Registry.fresh true).run
      [.register (.bare "late_reply" "late"), .register (.bare "late_reply" "too late")]).1
    codeText ⟨"late_reply"⟩ = "\"late_reply\"" ∧
      readError? receiver (errorText (.bare "late_reply" "late")) =
        some (.bare "late_reply" "too late") ∧
      readError? receiver (errorText (.bare "early_reply" "early")) =
        some Builtin.generalFailure := by
  obtain ⟨_, hcanonical, _, _, hhistory⟩ := texts_read_back
  refine ⟨hcanonical ⟨"late_reply"⟩ (by decide), ?_, ?_⟩
  · refine (hhistory true _ (.bare "late_reply" "late")).1 (.bare "late_reply" "too late") ?_ rfl
    exact ⟨Builtin.all ++ [.bare "late_reply" "late"], [], rfl, fun _ h => nomatch h⟩
  · exact (hhistory true _ (.bare "early_reply" "early")).2 (by decide)

/-- A quote and a backslash are escaped, control characters have letters or
numbers, and other characters stand for themselves. -/
example : codeText ⟨"say \"no\"\n\x01\\é"⟩ = "\"say \\\"no\\\"\\n\\u0001\\\\é\"" := by
  decide +kernel

end Wire

end Recourse
