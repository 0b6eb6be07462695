import TinyProc.Interpreter
import TinyProc.Proofs.Sequencing
import TinyProc.Proofs.Token.Scanning

/-!
# Integer literals, from source text to output

A program that displays a literal goes through every phase, and its output is the literal again
without the zeros in front of it. The phases are taken one by one:

* scanning delivers the literal as one token, or refuses it as a whole if it is beyond the words
  (`Scanner.next_of_isNumeral`). The sign is a token of its own, so that the lowest word cannot be
  written as a literal;
* parsing makes the sign a factor (`runFrom_literal`), and running multiplies (`eval_literalExpr`).
  The negative of a word that is a literal is a word, so that there is no overflow;
* what is displayed has the digits of the literal, from the first that is not zero on
  (`Decimal.ofInt_value`).
-/

namespace TinyProc

open Lexis

/-! ### Digits -/

/-- The text of a sign that may be missing. -/
def signText (negative : Bool) : String :=
  if negative then "-" else ""

namespace Decimal

/-- The digits from the first that is not zero on, and a single zero if there is none. -/
def significant : List Char → List Char
  | [] => ['0']
  | c :: rest => if c = '0' then significant rest else c :: rest

theorem digitChar_toNat_sub {c : Char} (h : c.isDigit = true) :
    c.toNat - '0'.toNat < 10 ∧ Nat.digitChar (c.toNat - '0'.toNat) = c := by
  have hbounds : 48 ≤ c.toNat ∧ c.toNat ≤ 57 := by
    simpa [Char.isDigit, UInt32.le_iff_toNat_le] using h
  have hzero : '0'.toNat = 48 := rfl
  have hlt : c.toNat - '0'.toNat < 10 := by omega
  refine ⟨hlt, Char.toNat_inj.1 ?_⟩
  rw [Nat.toNat_digitChar_of_lt_ten hlt]
  omega

/-- Further digits are written behind the digits of a number that is not zero. -/
theorem toDigits_ofDigitChars {digits : List Char} (h : ∀ c ∈ digits, c.isDigit = true) {n : Nat}
    (hn : 0 < n) :
    Nat.toDigits 10 (Nat.ofDigitChars 10 digits n) = Nat.toDigits 10 n ++ digits := by
  induction digits generalizing n with
  | nil => simp
  | cons c digits ih =>
    obtain ⟨hc, hdigits⟩ := List.forall_mem_cons.1 h
    obtain ⟨hlt, hchar⟩ := digitChar_toNat_sub hc
    rw [Nat.ofDigitChars_cons, ih hdigits (by omega),
      ← Nat.toDigits_append_toDigits (by decide) hn hlt, Nat.toDigits_of_lt_base hlt, hchar,
      List.append_assoc, List.singleton_append]

/-- The digits written for the number that digits stand for are the significant ones. -/
theorem toDigits_value {digits : List Char} (h : ∀ c ∈ digits, c.isDigit = true) :
    Nat.toDigits 10 (value digits) = significant digits := by
  induction digits with
  | nil => rfl
  | cons c digits ih =>
    obtain ⟨hc, hdigits⟩ := List.forall_mem_cons.1 h
    rw [significant, value, Nat.ofDigitChars_cons, Nat.mul_zero, Nat.zero_add]
    by_cases hzero : c = '0'
    · rw [if_pos hzero, hzero]
      exact ih hdigits
    · rw [if_neg hzero]
      obtain ⟨hlt, hchar⟩ := digitChar_toNat_sub hc
      have hpos : 0 < c.toNat - '0'.toNat := by
        refine Nat.pos_of_ne_zero fun h0 ↦ hzero ?_
        rw [← hchar, h0]
        rfl
      rw [toDigits_ofDigitChars hdigits hpos, Nat.toDigits_of_lt_base hlt, hchar,
        List.singleton_append]

theorem ofInt_neg (n : Nat) : ofInt (-(n : Int)) = signText (n != 0) ++ ofNat n := by
  cases n with
  | zero => rfl
  | succ n => rfl

/-- What is written for a number has the significant digits, and a sign where it is below zero. -/
theorem ofInt_value (negative : Bool) {digits : List Char} (h : ∀ c ∈ digits, c.isDigit = true) :
    ofInt (if negative then -(value digits : Int) else value digits) =
      signText (negative && value digits != 0) ++ String.ofList (significant digits) := by
  rw [← toDigits_value h]
  cases negative with
  | false => exact String.empty_append.symm
  | true => exact ofInt_neg _

end Decimal

/-! ### Scanning -/

variable {digits : List Char}

theorem Spelling.split?_of_isNumeral (h : IsNumeral digits) :
    split? digits = some ⟨digits, (Word.ofInt? (Decimal.value digits)).map .integer, []⟩ := by
  cases digits with
  | nil => exact absurd rfl h.1
  | cons c rest =>
    have htake : (c :: rest ++ []).takeWhile Char.isDigit = c :: rest ++ [] :=
      List.takeWhile_append_of_pos h.2
    have hdrop : (c :: rest ++ []).dropWhile Char.isDigit = [] := List.dropWhile_append_of_pos h.2
    rw [List.append_nil] at htake hdrop
    simp only [split?]
    rw [if_pos (h.2 c List.mem_cons_self), htake, hdrop]

namespace Scanner

theorem isPastGap_of_isNumeral (h : IsNumeral digits) : IsPastGap digits := by
  have hslash : ¬ ['/', '/'] <+: digits ++ [] := by
    rintro ⟨rest, hrest⟩
    have hmem : '/' ∈ digits := by
      rw [List.append_nil] at hrest
      exact hrest ▸ List.mem_cons_self
    exact absurd (h.2 '/' hmem) (by decide)
  have hpast := isPastGap_of_isSpelling (.numeral h) hslash
  rwa [List.append_nil] at hpast

/-- A numeral at the end of the text is delivered as its word, if it has one. -/
theorem next_of_isNumeral (h : IsNumeral digits) (line : Nat) :
    next ⟨digits, line, false⟩ =
      (match Word.ofInt? (Decimal.value digits) with
        | some w => .ok ⟨.integer w, line⟩
        | none => .error ⟨.literalTooLarge (String.ofList digits), line⟩,
      ⟨[], line, false⟩) := by
  have hpast := isPastGap_of_isNumeral h
  have hs := Spelling.split?_of_isNumeral h
  cases hw : Word.ofInt? (Decimal.value digits) with
  | some w =>
    rw [hw] at hs
    rw [next_of_split? hpast hs nofun]
    rfl
  | none =>
    cases digits with
    | nil => exact absurd rfl h.1
    | cons c rest =>
      simp only [next, skipGap_of_isPastGap hpast, hs, hw, Bool.false_eq_true, if_false,
        Option.map_none]
      rfl

/-- A minus sign in front of a numeral is a token of its own. -/
theorem next_minus (h : IsNumeral digits) (line : Nat) :
    next ⟨'-' :: digits, line, false⟩ =
      (.ok ⟨.symbol .minus, line⟩, ⟨digits, line, false⟩) := by
  have hnext : next ⟨'-' :: digits, line, false⟩ =
      (checkTrailing (.symbol .minus) ⟨['-'], some (.symbol .minus), digits⟩ line,
        ⟨digits, line, false⟩) := rfl
  rw [hnext, checkTrailing_eq_ok_iff.2 ⟨fun c hc ↦ ?_, rfl⟩]
  have hdenotes : Denotes ['-'] (.symbol .minus) := @Denotes.symbol .minus nofun
  exact (mayPrecede_iff hdenotes).2
    (.alphanumeric (isAlphanum_of_isDigit (h.2 c (List.mem_of_mem_head? hc))))

theorem scan_of_word (h : IsNumeral digits) {w : Word} (hw : w.val = Decimal.value digits)
    (n line : Nat) :
    scan (n + 2) ⟨digits, line, false⟩ = ⟨[⟨.integer w, line⟩, ⟨.eof, line⟩], none⟩ := by
  have hnext := next_of_isNumeral h line
  rw [Word.ofInt?_eq_some_iff.2 hw] at hnext
  rw [scan_of_next hnext nofun]
  rfl

theorem scan_of_not_inRange (h : IsNumeral digits) (hrange : ¬ InRange (Decimal.value digits))
    (n line : Nat) :
    scan (n + 1) ⟨digits, line, false⟩ =
      ⟨[], some ⟨.literalTooLarge (String.ofList digits), line⟩⟩ := by
  have hnext := next_of_isNumeral h line
  rw [Word.ofInt?_eq_none_iff.2 hrange] at hnext
  rw [scan, hnext]

end Scanner

theorem Scan.foldr_cons (front : List Lexeme) (s : Scan) :
    front.foldr cons s = ⟨front ++ s.lexemes, s.error?⟩ := by
  induction front with
  | nil => rfl
  | cons lexeme front ih => rw [List.foldr_cons, ih, Scan.cons, List.cons_append]

/-- The tokens in front of a literal that is displayed. -/
def leading (negative : Bool) : List Lexeme :=
  ⟨.keyword .displayKw, 1⟩ :: if negative then [⟨.symbol .minus, 1⟩] else []

/-- The scan comes to the literal, with calls enough for it and the end of the input. -/
theorem scan_leading (negative : Bool) {digits : String} (h : IsNumeral digits.toList) :
    ∃ n, scan ("display " ++ signText negative ++ digits) =
      (leading negative).foldr Scan.cons (Scanner.scan (n + 2) ⟨digits.toList, 1, false⟩) := by
  have hdisplay : ∀ rest, (Scanner.start ("display ".toList ++ rest)).next =
      (.ok ⟨.keyword .displayKw, 1⟩, ⟨[' '] ++ rest, 1, false⟩) := fun _ ↦ rfl
  have hgap : ∀ rest, IsGap rest [' '] := fun _ ↦ .whiteSpace (by decide) .nil
  have htext : ("display " ++ signText negative ++ digits).toList =
      "display ".toList ++ ((signText negative).toList ++ digits.toList) := by
    rw [String.append_assoc, String.toList_append, String.toList_append]
  have hlength : ("display " ++ signText negative ++ digits).toList.length =
      ((signText negative).toList ++ digits.toList).length + 7 + 1 := by
    rw [htext, List.length_append, Nat.add_comm]
    rfl
  -- eight characters are more than enough for the two calls in front of the literal
  show ∃ n, Scanner.scan (_ + 1) (Scanner.start _) = _
  rw [hlength, htext, Scanner.scan_of_next (hdisplay _) nofun, Scanner.scan_append (hgap _)]
  cases negative with
  | false => exact ⟨_, rfl⟩
  | true =>
    show ∃ n, (Scanner.scan (_ + 1) ⟨'-' :: digits.toList, 1, false⟩).cons _ = _
    rw [Scanner.scan_of_next (Scanner.next_minus h 1) nofun]
    exact ⟨_, rfl⟩

/-! ### Parsing and running -/

/-- A text that is refused by the scanner has no other result. -/
theorem result?_of_scanError {source : String} {e : ScanError} (h : (scan source).error? = some e)
    (rounds : Nat) (input : String) :
    result? rounds source input = some (.error (.scan e)) := by
  simp only [result?, run, parseNoting, h]

/-- A program that displays the value of one expression has it as its result. -/
theorem result?_display {source : String} {ts : List Lexeme} {e : Expr} {w : Word} {line : Nat}
    (h : scan source = ⟨ts, none⟩)
    (hparse : ∀ j, ∃ c, Parser.runFrom Parser.program ⟨ts, j⟩ =
      .ok ⟨[], [.display e none line]⟩ c)
    (heval : ∀ call m, Run.eval call .root e m = .ok w m) (rounds : Nat) (input : String) :
    result? rounds source input = some (.ok (w.text ++ "\n")) := by
  obtain ⟨c, hc⟩ := hparse (Journal.silent.noteAll (⟨ts, none⟩ : Scan).events)
  let console := Console.start input.toUTF8.toList .reliable
  have hexec : Run.exec (Run.call ⟨defaultCalls, rounds⟩) rounds .root (.display e none line)
      ⟨.empty, console, c.journal⟩ =
        .ok () ⟨.empty, { console with output := #[w] }, c.journal⟩ :=
    bind_of_ok (heval _ _)
  have hrun : Run.runProgram ⟨defaultCalls, rounds⟩ ⟨[], [.display e none line]⟩
      ⟨.empty, console, c.journal⟩ =
        .ok () ⟨.empty, { console with output := #[w] }, c.journal⟩ :=
    bind_of_ok hexec
  simp only [result?, run, parseNoting, h, hc]
  rw [hrun]
  simp [Console.outputText, Console.textOf, Console.lineOf]

/-- The expression that a literal is read as: a sign is a factor. -/
def literalExpr (negative : Bool) (w : Word) : Expr :=
  if negative then .binary .mul (.number .minusOne) (.number w) 1 else .number w

theorem runFrom_literal (negative : Bool) (w : Word) (j : Journal) :
    ∃ c, Parser.runFrom Parser.program ⟨leading negative ++ [⟨.integer w, 1⟩, ⟨.eof, 1⟩], j⟩ =
      .ok ⟨[], [.display (literalExpr negative w) none 1]⟩ c := by
  cases negative <;> exact ⟨_, rfl⟩

theorem eval_literalExpr (negative : Bool) {w shown : Word}
    (h : shown.val = if negative then -w.val else w.val) (call : Caller) (m : Machine) :
    Run.eval call .root (literalExpr negative w) m = .ok shown m := by
  cases negative with
  | false =>
    obtain rfl : shown = w := Word.ext h
    rfl
  | true =>
    have hval : shown.val = Word.minusOne.val * w.val := by
      rw [h, if_pos rfl, Word.val_minusOne, Int.neg_one_mul]
    have hproduct : Operator.apply .mul .minusOne w = .ok shown := by
      simp only [Operator.apply, Operator.checked, Word.ofInt?_eq_some_iff.2 hval]
    show Run.orFail (Operator.apply .mul .minusOne w) 1 m = _
    rw [hproduct]
    rfl

/-- A literal of a word is displayed as the word, and with a sign as its negative. -/
theorem result?_of_word (negative : Bool) {digits : String} (h : IsNumeral digits.toList)
    {w shown : Word} (hw : w.val = Decimal.value digits.toList)
    (hshown : shown.val = if negative then -w.val else w.val) (rounds : Nat) (input : String) :
    result? rounds ("display " ++ signText negative ++ digits) input =
      some (.ok (shown.text ++ "\n")) := by
  obtain ⟨n, hscan⟩ := scan_leading negative h
  rw [Scanner.scan_of_word h hw, Scan.foldr_cons] at hscan
  exact result?_display hscan (runFrom_literal negative w) (eval_literalExpr negative hshown)
    rounds input

/-- A literal beyond the words is refused, with a sign or without. -/
theorem result?_of_not_inRange (negative : Bool) {digits : String} (h : IsNumeral digits.toList)
    (hrange : ¬ InRange (Decimal.value digits.toList)) (rounds : Nat) (input : String) :
    result? rounds ("display " ++ signText negative ++ digits) input =
      some (.error (.scan ⟨.literalTooLarge digits, 1⟩)) := by
  obtain ⟨n, hscan⟩ := scan_leading negative h
  rw [Scanner.scan_of_not_inRange h hrange, Scan.foldr_cons, String.ofList_toList] at hscan
  exact result?_of_scanError (congrArg Scan.error? hscan) rounds input

/-- **Literals keep their value.** A literal of up to `2 ^ 63 - 1`, whatever zeros are in front of
it, is displayed as its value, or as the negative of its value if there is a sign: in digits without
zeros in front, and with a sign unless the value is zero. A literal beyond that is refused as it is
written, also where its negative is a word. -/
theorem literals_keep_their_value (negative : Bool) (digits : String)
    (h : IsNumeral digits.toList) (rounds : Nat) (input : String) :
    let source := "display " ++ signText negative ++ digits
    let n := Decimal.value digits.toList
    let i : Int := if negative then -n else n
    (n ≤ 9223372036854775807 →
      result? rounds source input = some (.ok (Decimal.ofInt i ++ "\n"))) ∧
    (9223372036854775807 < n →
      result? rounds source input = some (.error (.scan ⟨.literalTooLarge digits, 1⟩))) ∧
    Decimal.ofInt i =
      signText (negative && n != 0) ++ String.ofList (Decimal.significant digits.toList) := by
  intro source n i
  refine ⟨fun hn ↦ ?_, fun hn ↦ ?_, ?_⟩
  · have hword : InRange n := ⟨by omega, by omega⟩
    have hshown : InRange i := by
      cases negative with
      | false => exact hword
      | true => exact ⟨Int.neg_le_neg (by omega), by omega⟩
    exact @result?_of_word negative digits h ⟨n, hword⟩ ⟨i, hshown⟩ rfl rfl rounds input
  · exact result?_of_not_inRange negative h (fun hword ↦ by have := hword.2; omega) rounds input
  · exact Decimal.ofInt_value negative h.2

/-- Zeros in front, a zero with a sign, the largest word and its negative, and the lowest word. -/
theorem literals_keep_their_value_edges :
    IsNumeral "007".toList ∧ IsNumeral "00".toList ∧
    IsNumeral "9223372036854775807".toList ∧ IsNumeral "9223372036854775808".toList ∧
    result? 0 ("display " ++ signText true ++ "007") "" = some (.ok "-7\n") ∧
    result? 0 ("display " ++ signText true ++ "00") "" = some (.ok "0\n") ∧
    result? 0 ("display " ++ signText false ++ "9223372036854775807") "" =
      some (.ok "9223372036854775807\n") ∧
    result? 0 ("display " ++ signText true ++ "9223372036854775807") "" =
      some (.ok "-9223372036854775807\n") ∧
    result? 0 ("display " ++ signText true ++ "9223372036854775808") "" =
      some (.error (.scan ⟨.literalTooLarge "9223372036854775808", 1⟩)) := by
  have hseven : IsNumeral "007".toList := by decide
  have hzero : IsNumeral "00".toList := by decide
  have hmax : IsNumeral "9223372036854775807".toList := by decide
  have hmin : IsNumeral "9223372036854775808".toList := by decide
  exact ⟨hseven, hzero, hmax, hmin, (literals_keep_their_value true _ hseven 0 "").1 (by decide),
    (literals_keep_their_value true _ hzero 0 "").1 (by decide),
    (literals_keep_their_value false _ hmax 0 "").1 (by decide),
    (literals_keep_their_value true _ hmax 0 "").1 (by decide),
    (literals_keep_their_value true _ hmin 0 "").2.1 (by decide)⟩

end TinyProc
