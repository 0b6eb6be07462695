import TinyProc.Token.Basic
import TinyProc.Token.ScanError

/-!
# Scanning

A `Scanner` stands somewhere in the source text and delivers one token at a time:

* `skipGap` passes white space and comments and counts the lines;
* `Spelling.split?` cuts the longest spelling off the front and tells its class;
* `Scanner.next` puts the two together, checks the character after the spelling, and moves on.

The scanner has no memory but the text left, the line and whether the end has been reached, so that
going on after an error needs no rule of its own. It then stands behind the spelling at fault, or
behind the one character that starts no token.

`scan` reads a whole text. It keeps the tokens delivered before an error, which is what a journal of
a failed scan shows; `tokenize` forgets them.
-/

namespace TinyProc

/-! ### Gaps -/

/-- Passes white space and comments in front of the text, on the given line. A comment runs from
`//` to the end of its line; `inComment` tells whether the text starts inside one. Returns the line
reached and the text left. -/
def skipGap : (inComment : Bool) → (line : Nat) → List Char → Nat × List Char
  | _, line, [] => (line, [])
  | inComment, line, c :: rest =>
    if c = '\n' then skipGap false (line + 1) rest
    else if inComment then skipGap true line rest
    else if Token.isWhiteSpace c then skipGap false line rest
    else if c = '/' ∧ rest.head? = some '/' then skipGap true line rest
    else (line, c :: rest)

@[simp] theorem skipGap_nil (inComment : Bool) (line : Nat) :
    skipGap inComment line [] = (line, []) := by
  cases inComment <;> rfl

/-! ### Spellings -/

/-- The symbol at the front of the text and the text behind it. Of `:=`, `<=`, `>=` and `<>` no part
is taken alone. -/
def Symbol.split? : List Char → Option (Symbol × List Char)
  | ':' :: '=' :: rest => some (colonEquals, rest)
  | '<' :: '=' :: rest => some (lessEqual, rest)
  | '>' :: '=' :: rest => some (greaterEqual, rest)
  | '<' :: '>' :: rest => some (notEqual, rest)
  | '<' :: rest => some (less, rest)
  | '>' :: rest => some (greater, rest)
  | '=' :: rest => some (equals, rest)
  | '+' :: rest => some (plus, rest)
  | '-' :: rest => some (minus, rest)
  | '*' :: rest => some (star, rest)
  | '/' :: rest => some (slash, rest)
  | '%' :: rest => some (percent, rest)
  | '(' :: rest => some (leftParen, rest)
  | ')' :: rest => some (rightParen, rest)
  | ';' :: rest => some (semicolon, rest)
  | ':' :: rest => some (colon, rest)
  | ',' :: rest => some (comma, rest)
  | '.' :: rest => some (period, rest)
  | _ => none

/-- The symbol and the text behind it make up the text. -/
theorem Symbol.split?_append {text rest : List Char} {s : Symbol}
    (h : split? text = some (s, rest)) : s.text.toList ++ rest = text := by
  unfold split? at h
  split at h <;> cases h <;> rfl

/-- No symbol is empty. -/
theorem Symbol.toList_text_ne_nil (s : Symbol) : s.text.toList ≠ [] := by
  cases s <;> decide

/-- The token that letters and digits, led by a letter, spell: a keyword, or else a name. -/
def Token.ofWord (word : String) : Token :=
  match Keyword.ofSpelling? word with
  | some k => .keyword k
  | none => .identifier word

/-- A spelling cut off the front of a text. -/
structure Spelling where
  /-- The characters of the spelling. -/
  chars : List Char
  /-- The token it denotes; none if it is a number beyond the words. -/
  token? : Option Token
  /-- The text behind it. -/
  rest : List Char

/-- The spelling as a text. -/
def Spelling.text (s : Spelling) : String :=
  String.ofList s.chars

/-- Cuts the longest spelling off the front of the text: a run of digits, a run of letters and
digits led by a letter, or a symbol. -/
def Spelling.split? (text : List Char) : Option Spelling :=
  match text with
  | [] => none
  | c :: _ =>
    if c.isDigit then
      let digits := text.takeWhile Char.isDigit
      some ⟨digits, (Word.ofInt? (Decimal.value digits)).map .integer,
        text.dropWhile Char.isDigit⟩
    else if c.isAlpha then
      let word := text.takeWhile Char.isAlphanum
      some ⟨word, some (.ofWord (String.ofList word)), text.dropWhile Char.isAlphanum⟩
    else
      (Symbol.split? text).map fun (s, rest) ↦ ⟨s.text.toList, some (.symbol s), rest⟩

/-- The spelling and the text behind it make up the text. -/
theorem Spelling.split?_append {text : List Char} {s : Spelling} (h : split? text = some s) :
    s.chars ++ s.rest = text := by
  unfold split? at h
  split at h
  · cases h
  · split at h
    · cases h
      exact List.takeWhile_append_dropWhile
    · split at h
      · cases h
        exact List.takeWhile_append_dropWhile
      · obtain ⟨⟨symbol, rest⟩, hs, rfl⟩ := Option.map_eq_some_iff.1 h
        exact Symbol.split?_append hs

/-! ### One token at a time -/

/-- A place in a source text. -/
structure Scanner where
  /-- The text not yet read. -/
  rest : List Char
  /-- The line the scanner is on, counted from 1. -/
  line : Nat
  /-- Whether the end of the input has been delivered. -/
  finished : Bool
deriving DecidableEq

namespace Scanner

/-- A scanner in front of the text. -/
def start (text : List Char) : Scanner where
  rest := text
  line := 1
  finished := false

/-- Whether the character behind a spelling, if there is one, may stand there. -/
def checkTrailing (token : Token) (spelling : Spelling) (line : Nat) : Except ScanError Lexeme :=
  match spelling.rest.head? with
  | none => .ok ⟨token, line⟩
  | some c =>
    if token.mayPrecede c then .ok ⟨token, line⟩
    else .error ⟨.illegalTrailing spelling.text c, line⟩

/-- Delivers the next token, or an error, and moves on. The end of the text and a full stop are the
end of the input, which is delivered for ever after. -/
def next (s : Scanner) : Except ScanError Lexeme × Scanner :=
  if s.finished then (.ok ⟨.eof, s.line⟩, s)
  else
    match skipGap false s.line s.rest with
    | (line, []) => (.ok ⟨.eof, line⟩, ⟨[], line, true⟩)
    | (line, c :: rest) =>
      match Spelling.split? (c :: rest) with
      | none => (.error ⟨.unexpectedCharacter c, line⟩, ⟨rest, line, false⟩)
      | some spelling =>
        match spelling.token? with
        | none => (.error ⟨.literalTooLarge spelling.text, line⟩, ⟨spelling.rest, line, false⟩)
        | some (.symbol .period) => (.ok ⟨.eof, line⟩, ⟨spelling.rest, line, true⟩)
        | some token => (checkTrailing token spelling line, ⟨spelling.rest, line, false⟩)

/-- After the end of the input there is only the end of the input. -/
theorem next_of_finished {s : Scanner} (h : s.finished = true) :
    s.next = (.ok ⟨.eof, s.line⟩, s) := by
  simp [next, h]

end Scanner

/-! ### Whole texts -/

/-- What scanning a whole text yields. -/
structure Scan where
  /-- The tokens delivered; the last is the end of the input unless an error came first. -/
  lexemes : List Lexeme
  /-- The error that stopped the scan. -/
  error? : Option ScanError
deriving DecidableEq

/-- Puts a lexeme in front of a scan. -/
def Scan.cons (lexeme : Lexeme) (scan : Scan) : Scan :=
  { scan with lexemes := lexeme :: scan.lexemes }

/-- Delivers tokens up to the end of the input or the first error, and not more than `n`. -/
def Scanner.scan : (n : Nat) → Scanner → Scan
  | 0, _ => ⟨[], none⟩
  | n + 1, s =>
    match s.next with
    | (.error e, _) => ⟨[], some e⟩
    | (.ok lexeme, s') =>
      if lexeme.token = .eof then ⟨[lexeme], none⟩ else (s'.scan n).cons lexeme

/-- Scans a whole text. Each token takes at least one character, and the end of the input is one
token more. -/
def scan (source : String) : Scan :=
  let text := source.toList
  (Scanner.start text).scan (text.length + 1)

/-- The tokens of a text, the last of them the end of the input, or the first scan error. -/
def tokenize (source : String) : Except ScanError (List Lexeme) :=
  let result := scan source
  match result.error? with
  | some e => .error e
  | none => .ok result.lexemes

end TinyProc
