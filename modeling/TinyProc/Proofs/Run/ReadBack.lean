import TinyProc.Proofs.Run.Input
import TinyProc.Proofs.Token.Lexis

/-!
# What is displayed can be read back

A word that is displayed is written on a line of its own, in decimal digits. A read takes a line,
drops the blanks around it, and accepts what is left if it is an integer in range. The two are
inverse to each other, for words in any number (`Run.read_undoes_display`). Reading is the more
generous of them: there may be blanks, a plus sign and zeros in front that displaying does not
write. How a line may look is described by `LineStyle`, and displaying has one of these styles.

Between a line and its number there are three steps, and each has its own lemma. The bytes of a line
are those of its text, and the byte that ends a line is in no other character
(`lineEnd_not_mem_bytesOf`). Blanks are dropped from both ends, and a number neither begins nor ends
with one (`trim_surrounded`). Digits stand for a number (`Word.read?_eq_some_iff`).
-/

namespace TinyProc

open Console Lexis

/-! ### Integers as texts -/

/-- How an integer is written: at most one sign, then one or more digits. -/
inductive IsInteger : List Char → Int → Prop
  | unsigned {digits : List Char} (h : IsNumeral digits) : IsInteger digits (Decimal.value digits)
  | plus {digits : List Char} (h : IsNumeral digits) :
    IsInteger ('+' :: digits) (Decimal.value digits)
  | minus {digits : List Char} (h : IsNumeral digits) :
    IsInteger ('-' :: digits) (-(Decimal.value digits : Int))

/-- Zeros in front add nothing. -/
theorem Decimal.value_zeros (n : Nat) (digits : List Char) :
    value (List.replicate n '0' ++ digits) = value digits := by
  induction n with
  | zero => rfl
  | succ n ih => exact ih

/-- A run of digits stands for its value, and nothing else stands for a number. -/
theorem Decimal.natural?_eq_some_iff {text : List Char} {n : Nat} :
    natural? text = some n ↔ IsNumeral text ∧ value text = n := by
  rw [natural?, IsNumeral]
  by_cases h : text ≠ [] ∧ text.all Char.isDigit
  · rw [if_pos h]
    simpa using fun _ ↦ h
  · rw [if_neg h]
    simpa using fun hne hdigits ↦ absurd ⟨hne, List.all_eq_true.2 hdigits⟩ h

/-- Digits have no sign in front. -/
theorem Decimal.integer?_of_isNumeral {digits : List Char} (h : IsNumeral digits) :
    integer? digits = (natural? digits).map Int.ofNat := by
  unfold integer?
  split
  · exact absurd (h.2 '-' List.mem_cons_self) (by decide)
  · exact absurd (h.2 '+' List.mem_cons_self) (by decide)
  · rfl

theorem Decimal.integer?_minus (digits : List Char) :
    integer? ('-' :: digits) = (natural? digits).map fun n : Nat ↦ -Int.ofNat n := by
  rw [integer?]
  cases natural? digits <;> rfl

/-- A sign in front is allowed, plus or minus, and only one. -/
theorem Decimal.integer?_eq_some_iff {text : List Char} {i : Int} :
    integer? text = some i ↔ IsInteger text i := by
  constructor
  · intro h
    unfold integer? at h
    split at h
    · rename_i digits
      replace h : integer? ('-' :: digits) = some i := h
      rw [integer?_minus] at h
      obtain ⟨n, hn, rfl⟩ := Option.map_eq_some_iff.1 h
      obtain ⟨hdigits, rfl⟩ := natural?_eq_some_iff.1 hn
      exact .minus hdigits
    · obtain ⟨n, hn, rfl⟩ := Option.map_eq_some_iff.1 h
      obtain ⟨hdigits, rfl⟩ := natural?_eq_some_iff.1 hn
      exact .plus hdigits
    · obtain ⟨n, hn, rfl⟩ := Option.map_eq_some_iff.1 h
      obtain ⟨hdigits, rfl⟩ := natural?_eq_some_iff.1 hn
      exact .unsigned hdigits
  · intro h
    cases h with
    | unsigned h =>
      rw [integer?_of_isNumeral h, natural?_eq_some_iff.2 ⟨h, rfl⟩]
      rfl
    | plus h => exact Option.map_eq_some_iff.2 ⟨_, natural?_eq_some_iff.2 ⟨h, rfl⟩, rfl⟩
    | minus h =>
      rw [integer?_minus, natural?_eq_some_iff.2 ⟨h, rfl⟩]
      rfl

/-- A text is read as a word exactly if it is an integer of the value of the word. Whether it is in
range has been asked by then, since words are. -/
theorem Word.read?_eq_some_iff {text : List Char} {w : Word} :
    read? text = some w ↔ IsInteger text w.val := by
  rw [read?, Option.bind_eq_some_iff]
  constructor
  · rintro ⟨i, hi, hw⟩
    rw [ofInt?_eq_some_iff.1 hw]
    exact Decimal.integer?_eq_some_iff.1 hi
  · intro h
    exact ⟨w.val, Decimal.integer?_eq_some_iff.2 h, ofInt?_val w⟩

/-- An integer neither begins nor ends with a blank. -/
theorem IsInteger.not_isBlank {text : List Char} {i : Int} (h : IsInteger text i) :
    text ≠ [] ∧ ∀ c ∈ text, isBlank c = false := by
  have hdigit : ∀ c : Char, c.isDigit = true → isBlank c = false := by
    intro c hc
    have hbounds : 48 ≤ c.toNat ∧ c.toNat ≤ 57 := by
      simpa [Char.isDigit, UInt32.le_iff_toNat_le] using hc
    simp only [isBlank, Bool.or_eq_false_iff, Bool.and_eq_false_iff, decide_eq_false_iff_not,
      beq_eq_false_iff_ne]
    omega
  have hdigits : ∀ {digits : List Char}, IsNumeral digits → ∀ c ∈ digits, isBlank c = false :=
    fun h c hc ↦ hdigit c (h.2 c hc)
  cases h with
  | unsigned h => exact ⟨h.1, hdigits h⟩
  | plus h => exact ⟨List.cons_ne_nil _ _, List.forall_mem_cons.2 ⟨by decide, hdigits h⟩⟩
  | minus h => exact ⟨List.cons_ne_nil _ _, List.forall_mem_cons.2 ⟨by decide, hdigits h⟩⟩

/-! ### Blanks -/

/-- Blanks in front are dropped, and no more than they. -/
theorem trimStart_append {front text : List Char} (hfront : ∀ c ∈ front, isBlank c = true)
    (htext : ∀ c ∈ text.head?, isBlank c = false) : trimStart (front ++ text) = text := by
  rw [trimStart, List.dropWhile_append_of_pos hfront]
  cases text with
  | nil => rfl
  | cons c rest => exact List.dropWhile_cons_of_neg (by simp [htext c rfl])

/-- The blanks around a text are what is dropped, if the text has none. -/
theorem trim_surrounded {front text back : List Char} (hfront : ∀ c ∈ front, isBlank c = true)
    (hback : ∀ c ∈ back, isBlank c = true) (hne : text ≠ [])
    (htext : ∀ c ∈ text, isBlank c = false) : trim (front ++ (text ++ back)) = text := by
  have hhead : ∀ c ∈ (text ++ back).head?, isBlank c = false := by
    intro c hc
    rw [List.head?_append_of_ne_nil _ hne] at hc
    exact htext c (List.mem_of_mem_head? hc)
  have hlast : ∀ c ∈ text.reverse.head?, isBlank c = false := fun c hc ↦
    htext c (List.mem_reverse.1 (List.mem_of_mem_head? hc))
  rw [trim, trimStart_append hfront hhead, List.reverse_append,
    trimStart_append (fun c hc ↦ hback c (List.mem_reverse.1 hc)) hlast, List.reverse_reverse]

/-! ### Bytes -/

/-- The bytes of a text. -/
def bytesOf (text : String) : List UInt8 :=
  text.toUTF8.data.toList

/-- The bytes of a text are those of its characters, one after the other. -/
theorem bytesOf_eq (text : String) : bytesOf text = text.toList.flatMap String.utf8EncodeChar := by
  rw [bytesOf, String.toUTF8_eq_toByteArray, ← String.utf8Encode_toList, List.utf8Encode,
    List.toList_data_toByteArray]

theorem bytesOf_append (a b : String) : bytesOf (a ++ b) = bytesOf a ++ bytesOf b := by
  rw [bytesOf_eq, bytesOf_eq, bytesOf_eq, String.toList_append, List.flatMap_append]

/-- A line is decoded as the text whose bytes it has, if there is one. -/
theorem decode?_eq_some_iff {line : List UInt8} {text : String} :
    decode? line = some text ↔ line = bytesOf text := by
  rw [decode?, String.fromUTF8?]
  constructor
  · intro h
    split at h
    · cases h
      rfl
    · cases h
  · rintro rfl
    exact dif_pos text.isValidUTF8

/-- The byte that ends a line is in no other character. -/
theorem lineEnd_not_mem_utf8EncodeChar {c : Char} (h : c ≠ '\n') :
    lineEnd ∉ String.utf8EncodeChar c := by
  have hne : c.val.toNat ≠ 10 := fun hc ↦ h (Char.toNat_inj.1 hc)
  have hbyte : ∀ n, n % 256 ≠ 10 → lineEnd ≠ UInt8.ofNat n := by
    intro n hn heq
    have hval := congrArg UInt8.toNat heq
    rw [UInt8.toNat_ofNat'] at hval
    exact hn hval.symm
  rw [String.utf8EncodeChar]
  split
  · exact fun hmem ↦ hbyte _ (by omega) (List.mem_singleton.1 hmem)
  · split
    · simp only [List.mem_cons, List.not_mem_nil, or_false, not_or]
      exact ⟨hbyte _ (by omega), hbyte _ (by omega)⟩
    · split
      · simp only [List.mem_cons, List.not_mem_nil, or_false, not_or]
        exact ⟨hbyte _ (by omega), hbyte _ (by omega), hbyte _ (by omega)⟩
      · simp only [List.mem_cons, List.not_mem_nil, or_false, not_or]
        exact ⟨hbyte _ (by omega), hbyte _ (by omega), hbyte _ (by omega), hbyte _ (by omega)⟩

theorem lineEnd_not_mem_bytesOf {text : String} (h : '\n' ∉ text.toList) :
    lineEnd ∉ bytesOf text := by
  rw [bytesOf_eq, List.mem_flatMap]
  rintro ⟨c, hc, hmem⟩
  exact lineEnd_not_mem_utf8EncodeChar (ne_of_mem_of_not_mem hc h) hmem

theorem bytesOf_ne_nil {text : String} (h : text.toList ≠ []) : bytesOf text ≠ [] := by
  rw [bytesOf_eq]
  obtain ⟨c, rest, hc⟩ := List.exists_cons_of_ne_nil h
  rw [hc, List.flatMap_cons]
  exact List.append_ne_nil_of_left_ne_nil String.utf8EncodeChar_ne_nil _

/-! ### Lines -/

/-- A way to write a word on a line. -/
structure LineStyle where
  /-- What stands in front of the number. -/
  front : List Char
  /-- Whether a number that is not negative has a sign. -/
  plus : Bool
  /-- How many zeros stand in front of the digits. -/
  zeros : Nat
  /-- What stands behind the number. -/
  back : List Char
  /-- There are only blanks in front, and the line does not end there. -/
  front_blank : ∀ c ∈ front, isBlank c = true ∧ c ≠ '\n'
  /-- There are only blanks behind, and the line does not end there. -/
  back_blank : ∀ c ∈ back, isBlank c = true ∧ c ≠ '\n'

namespace LineStyle

/-- The number and nothing else. -/
def plain : LineStyle where
  front := []
  plus := false
  zeros := 0
  back := []
  front_blank := List.forall_mem_nil _
  back_blank := List.forall_mem_nil _

variable (style : LineStyle) (w : Word)

/-- The number as it is written. -/
def number : List Char :=
  (if w.val < 0 then ['-'] else if style.plus then ['+'] else []) ++
    (List.replicate style.zeros '0' ++ Nat.toDigits 10 w.val.natAbs)

/-- The line, without the character that ends it. -/
def line : String :=
  String.ofList (style.front ++ (style.number w ++ style.back))

/-- Displaying writes the number and nothing else. -/
theorem line_plain : plain.line w = w.text := by
  rw [line, number, Word.text]
  cases w.val with
  | ofNat n => simp [plain, Decimal.ofInt, Decimal.ofNat]
  | negSucc n => simp [plain, Decimal.ofInt, Decimal.ofNat]

theorem isNumeral_digits :
    IsNumeral (List.replicate style.zeros '0' ++ Nat.toDigits 10 w.val.natAbs) := by
  refine ⟨List.append_ne_nil_of_right_ne_nil _ Nat.toDigits_ne_nil, fun c hc ↦ ?_⟩
  obtain hzero | hdigit := List.mem_append.1 hc
  · rw [(List.mem_replicate.1 hzero).2]
    decide
  · exact Nat.isDigit_of_mem_toDigits (by decide) (by decide) hdigit

/-- Every style writes an integer of the right value. -/
theorem isInteger_number : IsInteger (style.number w) w.val := by
  have hdigits := style.isNumeral_digits w
  have hvalue : Decimal.value (List.replicate style.zeros '0' ++ Nat.toDigits 10 w.val.natAbs) =
      w.val.natAbs := by
    rw [Decimal.value_zeros, Decimal.value_toDigits]
  rw [number]
  split
  · rename_i hneg
    have h := IsInteger.minus hdigits
    rwa [hvalue, Int.ofNat_natAbs_of_nonpos (Int.le_of_lt hneg), Int.neg_neg] at h
  · rename_i hneg
    have habs : (w.val.natAbs : Int) = w.val := Int.natAbs_of_nonneg (Int.not_lt.1 hneg)
    split
    · have h := IsInteger.plus hdigits
      rwa [hvalue, habs] at h
    · have h := IsInteger.unsigned hdigits
      rwa [hvalue, habs] at h

/-- The number is found between the blanks, those at the end of the line among them. -/
theorem trim_line_append {text : String} (htext : ∀ c ∈ text.toList, isBlank c = true) :
    trim (style.line w ++ text).toList = style.number w := by
  obtain ⟨hne, hnumber⟩ := (style.isInteger_number w).not_isBlank
  rw [line, String.toList_append, String.toList_ofList, List.append_assoc, List.append_assoc]
  refine trim_surrounded (fun c hc ↦ (style.front_blank c hc).1) (fun c hc ↦ ?_) hne hnumber
  exact (List.mem_append.1 hc).elim (fun h ↦ (style.back_blank c h).1) (htext c)

/-- No style breaks the line. -/
theorem newline_not_mem_line : '\n' ∉ (style.line w).toList := by
  rw [line, String.toList_ofList, List.mem_append, List.mem_append]
  rintro (h | h | h)
  · exact (style.front_blank _ h).2 rfl
  · exact absurd ((style.isInteger_number w).not_isBlank.2 _ h) (by decide)
  · exact (style.back_blank _ h).2 rfl

end LineStyle

/-- Words on lines one below the other, each in its style. The last line may lack its end. -/
def pageOf (ended : Bool) : List (LineStyle × Word) → String
  | [] => ""
  | [(style, w)] => style.line w ++ if ended then "\n" else ""
  | (style, w) :: next :: page => style.line w ++ ("\n" ++ pageOf ended (next :: page))

theorem textOf_cons (w : Word) (words : List Word) :
    textOf (w :: words) = lineOf w ++ textOf words :=
  String.join_cons

theorem textOf_append (words words' : List Word) :
    textOf (words ++ words') = textOf words ++ textOf words' := by
  rw [textOf, List.map_append, String.join_append]
  rfl

/-- What displaying writes is a page. -/
theorem pageOf_plain (words : List Word) :
    pageOf true (words.map (LineStyle.plain, ·)) = textOf words := by
  induction words with
  | nil => rfl
  | cons w words ih =>
    rw [textOf_cons, ← ih, lineOf, ← LineStyle.line_plain]
    cases words with
    | nil => exact (String.append_empty).symm
    | cons next words => exact (String.append_assoc ..).symm

/-! ### Reading a line -/

/-- Cutting off a line is cutting off the one that the input begins with. -/
theorem splitLine_of_lines {input line rest : List UInt8} (h : Lines input [line] rest) :
    splitLine input = (line, rest) := by
  cases h with
  | ended hbody h =>
    cases h
    exact splitLine_ended hbody rest
  | last hbody hne => exact splitLine_last hbody

/-- A line that is a text holds a word, or it is rejected with the text that is left of it. -/
theorem readLine_bytesOf {text : String} (hne : bytesOf text ≠ []) (name : String) :
    readLine name (bytesOf text) =
      (Word.read? (trim text.toList)).elim
        (.error (.inputFormat (String.ofList (trim text.toList)))) .ok := by
  have hdecoded : decode? (bytesOf text) = some text := decode?_eq_some_iff.2 rfl
  rw [readLine, if_neg (by simpa using hne)]
  simp only [hdecoded]
  cases Word.read? (trim text.toList) <;> rfl

/-- A line that is no text is rejected as such. -/
theorem readLine_of_not_text {line : List UInt8} (hne : line ≠ [])
    (htext : ∀ text, line ≠ bytesOf text) (name : String) :
    readLine name line = .error (.stream .notText) := by
  have hnone : decode? line = none :=
    Option.eq_none_iff_forall_ne_some.2 fun text h ↦ htext text (decode?_eq_some_iff.1 h)
  rw [readLine, if_neg (by simpa using hne), hnone]

/-- A line with a number is not empty. -/
theorem line_append_ne_nil {style : LineStyle} {w : Word} {text : String}
    (htext : ∀ c ∈ text.toList, isBlank c = true) : bytesOf (style.line w ++ text) ≠ [] := by
  refine bytesOf_ne_nil fun hnil ↦ (style.isInteger_number w).not_isBlank.1 ?_
  rw [← style.trim_line_append w htext, hnil, trim_nil]

/-- A word is read from its line, whatever its style. -/
theorem readLine_line {style : LineStyle} {w : Word} {text : String}
    (htext : ∀ c ∈ text.toList, isBlank c = true) (name : String) :
    readLine name (bytesOf (style.line w ++ text)) = .ok w := by
  rw [readLine_bytesOf (line_append_ne_nil htext), style.trim_line_append w htext,
    Word.read?_eq_some_iff.2 (style.isInteger_number w), Option.elim_some]

/-- The first line of a page is that of its first word, with the end of the line or without it, and
the page of the others is left. -/
theorem lines_pageOf (ended : Bool) (style : LineStyle) (w : Word)
    (page : List (LineStyle × Word)) :
    ∃ text : String, (∀ c ∈ text.toList, isBlank c = true) ∧
      Lines (bytesOf (pageOf ended ((style, w) :: page))) [bytesOf (style.line w ++ text)]
        (bytesOf (pageOf ended page)) := by
  have hbody : lineEnd ∉ bytesOf (style.line w) :=
    lineEnd_not_mem_bytesOf (style.newline_not_mem_line w)
  have hblank : ∀ c ∈ "\n".toList, isBlank c = true := List.all_eq_true.1 (by decide)
  have hended (rest : String) : Lines (bytesOf (style.line w ++ ("\n" ++ rest)))
      [bytesOf (style.line w ++ "\n")] (bytesOf rest) := by
    have hend : bytesOf "\n" = [lineEnd] := by decide
    rw [bytesOf_append, bytesOf_append, bytesOf_append, hend]
    exact .ended hbody (.none _)
  cases page with
  | nil =>
    cases ended with
    | true => exact ⟨"\n", hblank, hended ""⟩
    | false =>
      refine ⟨"", List.forall_mem_nil _, .last ?_ (line_append_ne_nil (List.forall_mem_nil _))⟩
      show lineEnd ∉ bytesOf (style.line w ++ "")
      rwa [String.append_empty]
  | cons next page => exact ⟨"\n", hblank, hended _⟩

/-- The first word of a page is read, and the page of the others is left. -/
theorem read_pageOf {c : Console} {ended : Bool} {style : LineStyle} {w : Word}
    {page : List (LineStyle × Word)} (h : c.input = bytesOf (pageOf ended ((style, w) :: page)))
    (name : String) :
    c.read name = (.ok w, { c with input := bytesOf (pageOf ended page) }) := by
  obtain ⟨text, htext, hlines⟩ := lines_pageOf ended style w page
  rw [Console.read, h, splitLine_of_lines hlines]
  exact congrArg (·, _) (readLine_line htext name)

/-! ### Reading and displaying in a program -/

/-- The environment after assignments as seen from a scope, in order. -/
def Environment.setAll (env : Environment) (s : ScopeId) (values : List (String × Word)) :
    Environment :=
  values.foldl (fun env entry ↦ env.set s entry.1 entry.2) env

namespace Run

variable {m : Machine} {s : ScopeId}

/-- A word that is read is assigned. -/
theorem readInto_of_read {target : ReadTarget} {w : Word} {console : Console}
    (hs : m.env.IsLive s) (h : m.console.read target.name = (.ok w, console)) :
    ∃ journal, readInto s target m = .ok () ⟨m.env.set s target.name w, console, journal⟩ := by
  rw [readInto_eq, h]
  dsimp only
  rw [assign_eq, if_pos hs]
  exact ⟨_, rfl⟩

/-- A read that fails changes the input only. -/
theorem readInto_of_rejected {target : ReadTarget} {cause : FaultCause} {rest : List UInt8}
    (h : m.console.read target.name = (.error cause, { m.console with input := rest })) :
    readInto s target m = .error (.fault ⟨cause, target.line⟩) (m.withInput rest) := by
  simp only [readInto_eq, h, Machine.withInput]

/-- Reads take the words of a page, from the first to the last. -/
theorem mapM_readWord_pageOf {ended : Bool} {page : List (LineStyle × Word)}
    {targets : List ReadTarget} (hlength : targets.length = page.length)
    (h : m.console.input = bytesOf (pageOf ended page)) :
    targets.mapM readWord m = .ok (page.map (·.2)) (m.withInput []) := by
  induction page generalizing m targets with
  | nil =>
    have hinput : m.console.input = [] := h
    rw [List.length_eq_zero_iff.1 hlength, Machine.withInput, ← hinput]
    rfl
  | cons entry page ih =>
    obtain ⟨target, rest, rfl⟩ := List.exists_cons_of_length_eq_add_one hlength
    have hread : readWord target m = .ok entry.2 (m.withInput (bytesOf (pageOf ended page))) := by
      show orFail (m.console.read target.name).1 target.line
        { m with console := (m.console.read target.name).2 } = _
      rw [read_pageOf h]
      rfl
    rw [List.mapM_cons, bind_of_ok hread, bind_of_ok (ih (Nat.succ.inj hlength) rfl)]
    rfl

/-- A block of reads assigns the words of a page, from the first to the last. -/
theorem runBlock_reads_pageOf (bounds : Bounds) {ended : Bool} {page : List (LineStyle × Word)}
    {targets : List ReadTarget} (hs : m.env.IsLive s) (hlength : targets.length = page.length)
    (h : m.console.input = bytesOf (pageOf ended page)) :
    ∃ journal, runBlock bounds s (targets.map .read) m =
      .ok () ⟨m.env.setAll s ((targets.map (·.name)).zip (page.map (·.2))),
        { m.console with input := [] }, journal⟩ := by
  induction page generalizing m targets with
  | nil =>
    have hinput : m.console.input = [] := h
    rw [List.length_eq_zero_iff.1 hlength, ← hinput]
    exact ⟨m.journal, rfl⟩
  | cons entry page ih =>
    obtain ⟨target, rest, rfl⟩ := List.exists_cons_of_length_eq_add_one hlength
    obtain ⟨journal, hread⟩ := readInto_of_read hs (read_pageOf h target.name)
    have hlive : (m.env.set s target.name entry.2).IsLive s := by
      rw [Environment.IsLive, Environment.depth_set]
      exact hs
    obtain ⟨journal', hrest⟩ := ih (m := ⟨_, { m.console with input := _ }, journal⟩) hlive
      (Nat.succ.inj hlength) rfl
    exact ⟨journal', (bind_of_ok hread).trans hrest⟩

/-- A block of displays writes the words, if the sink is reliable. -/
theorem runBlock_displays (bounds : Bounds) (hsink : m.console.sink = .reliable)
    (words : List Word) (line : Nat) :
    runBlock bounds s (words.map fun w ↦ .display (.number w) none line) m =
      .ok () { m with
        console := { m.console with output := m.console.output ++ words.toArray } } := by
  induction words generalizing m with
  | nil =>
    rw [Array.append_empty]
    rfl
  | cons w words ih =>
    have hdisplay : m.console.display w =
        (none, { m.console with output := m.console.output.push w }) := by
      simp [Console.display, isFull, hsink, Sink.reliable]
    have hstep : runStatement bounds s (.display (.number w) none line) m =
        .ok () { m with console := { m.console with output := m.console.output.push w } } := by
      show (Run.display w line >>= fun _ ↦ pure ()) m = _
      refine bind_of_ok (a := ()) ?_
      rw [display_apply, hdisplay]
    have hrest := ih (m := { m with console := { m.console with
      output := m.console.output.push w } }) hsink
    refine (bind_of_ok hstep).trans (hrest.trans ?_)
    simp

/-- **What is displayed can be read back.** Words that are displayed are written as a page in the
plain style. The words of any page, whatever its styles and whether or not its last line is ended,
are taken by as many reads, in order, and nothing of the input is left. On the other hand, a read
accepts a line that is a text just if the text is an integer in range when the blanks around it are
dropped. What is left of any other text is reported, and no variable has changed. -/
theorem read_undoes_display (bounds : Bounds) (s : ScopeId) (m : Machine) :
    (∀ (words : List Word) (line : Nat), m.console.sink = .reliable →
      ∃ m', runBlock bounds s (words.map fun w ↦ .display (.number w) none line) m = .ok () m' ∧
        m'.console.outputText =
          m.console.outputText ++ pageOf true (words.map (LineStyle.plain, ·))) ∧
    (∀ (ended : Bool) (page : List (LineStyle × Word)) (targets : List ReadTarget),
      m.env.IsLive s → targets.length = page.length →
      m.console.input = bytesOf (pageOf ended page) →
        targets.mapM readWord m = .ok (page.map (·.2)) (m.withInput []) ∧
        ∃ journal, runBlock bounds s (targets.map .read) m =
          .ok () ⟨m.env.setAll s ((targets.map (·.name)).zip (page.map (·.2))),
            { m.console with input := [] }, journal⟩) ∧
    ∀ (target : ReadTarget) (line rest : List UInt8), m.env.IsLive s →
      Lines m.console.input [line] rest →
        (∀ text, line = bytesOf text →
          (∀ w : Word, IsInteger (trim text.toList) w.val →
            ∃ journal, readInto s target m = .ok () ⟨m.env.set s target.name w,
              { m.console with input := rest }, journal⟩) ∧
          ((∀ w : Word, ¬ IsInteger (trim text.toList) w.val) →
            readInto s target m =
              .error (.fault ⟨.inputFormat (String.ofList (trim text.toList)), target.line⟩)
                (m.withInput rest))) ∧
        ((∀ text, line ≠ bytesOf text) →
          readInto s target m = .error (.fault ⟨.stream .notText, target.line⟩)
            (m.withInput rest)) := by
  refine ⟨fun words line hsink ↦ ?_, fun ended page targets hs hlength hinput ↦ ?_,
    fun target line rest hs hlines ↦ ?_⟩
  · refine ⟨_, runBlock_displays bounds hsink words line, ?_⟩
    rw [pageOf_plain, outputText, outputText, Array.toList_append, textOf_append]
  · exact ⟨mapM_readWord_pageOf hlength hinput, runBlock_reads_pageOf bounds hs hlength hinput⟩
  · have hread : m.console.read target.name =
        (readLine target.name line, { m.console with input := rest }) := by
      rw [Console.read, splitLine_of_lines hlines]
    have hne : line ≠ [] := hlines.ne_nil_of_mem (List.mem_singleton_self line)
    refine ⟨?_, fun htext ↦ ?_⟩
    · rintro text rfl
      refine ⟨fun w hw ↦ ?_, fun hnone ↦ ?_⟩
      · rw [readLine_bytesOf hne, Word.read?_eq_some_iff.2 hw, Option.elim_some] at hread
        exact readInto_of_read hs hread
      · have hrejected : Word.read? (trim text.toList) = none :=
          Option.eq_none_iff_forall_ne_some.2 fun w hw ↦ hnone w (Word.read?_eq_some_iff.1 hw)
        rw [readLine_bytesOf hne, hrejected, Option.elim_none] at hread
        exact readInto_of_rejected hread
    · rw [readLine_of_not_text hne htext] at hread
      exact readInto_of_rejected hread

/-- Whether characters may stand around a number can be computed. -/
theorem blanks_of_all {cs : List Char} (h : cs.all (fun c ↦ isBlank c && c != '\n') = true) :
    ∀ c ∈ cs, isBlank c = true ∧ c ≠ '\n' := by
  simpa using h

/-- The lowest word, one and zero are read from lines with blanks, signs and zeros, the last of
which is not ended; the number after the largest word is rejected. -/
theorem read_undoes_display_styles :
    let low : Word := ⟨-9223372036854775808, by decide⟩
    let style : LineStyle := ⟨['\u00a0', '\t'], true, 2, ['\r', '\u3000'],
      blanks_of_all rfl, blanks_of_all rfl⟩
    let page := [(style, low), (.plain, .one), (style, .zero)]
    let targets : List ReadTarget := [⟨"x", 1⟩, ⟨"y", 2⟩, ⟨"x", 3⟩]
    let start (text : String) : Machine := ⟨.empty, Console.start (bytesOf text) .reliable, .silent⟩
    pageOf false page = "\u00a0\t-009223372036854775808\r\u3000\n1\n\u00a0\t+000\r\u3000" ∧
      targets.mapM readWord (start (pageOf false page)) = .ok [low, .one, .zero] (start "") ∧
      (∃ m', runBlock ⟨64, 0⟩ .root ([low, .one].map fun w ↦ .display (.number w) none 1)
          (start "") = .ok () m' ∧ m'.console.outputText = "-9223372036854775808\n1\n") ∧
      readInto .root ⟨"x", 4⟩ (start "\t+9223372036854775808 \n5") =
        .error (.fault ⟨.inputFormat "+9223372036854775808", 4⟩) (start "5") := by
  intro low style page targets start
  have hlive : Environment.empty.IsLive .root := by decide
  have hpage : pageOf false page =
      "\u00a0\t-009223372036854775808\r\u3000\n1\n\u00a0\t+000\r\u3000" := by decide +kernel
  obtain ⟨hdisplay, -, -⟩ := read_undoes_display ⟨64, 0⟩ .root (start "")
  obtain ⟨-, hread, -⟩ := read_undoes_display ⟨64, 0⟩ .root (start (pageOf false page))
  obtain ⟨-, -, hline⟩ := read_undoes_display ⟨64, 0⟩ .root (start "\t+9223372036854775808 \n5")
  refine ⟨hpage, (hread false page targets hlive rfl rfl).1, ?_, ?_⟩
  · obtain ⟨m', hm', htext⟩ := hdisplay [low, .one] 1 rfl
    refine ⟨m', hm', htext.trans ?_⟩
    decide +kernel
  · have hne : bytesOf "\t+9223372036854775808 \n5" ≠ [] := by decide +kernel
    have hlines : Lines (bytesOf "\t+9223372036854775808 \n5")
        [bytesOf "\t+9223372036854775808 \n"] (bytesOf "5") := lines_splitLine hne
    refine ((hline ⟨"x", 4⟩ _ _ hlive hlines).1 _ rfl).2 fun w hw ↦ ?_
    have hnone : Word.read? (trim "\t+9223372036854775808 \n".toList) = none := by decide +kernel
    exact nomatch hnone.symm.trans (Word.read?_eq_some_iff.2 hw)

end Run

end TinyProc
