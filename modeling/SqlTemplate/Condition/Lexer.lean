import SqlTemplate.Condition.Token
import SqlTemplate.Text.Identifier

/-!
# From a text to its tokens

`Lexeme.first?` reads one lexeme at the beginning of a text: blanks, a number, a quoted text, a
word or a symbol, each as long as it can be. `tokens` reads lexeme after lexeme, drops the
blanks and gives each other one its meaning and its position.
-/

namespace SqlTemplate

namespace Condition

/-- A piece of a condition, as it is written. -/
inductive Lexeme where
  /-- Characters without meaning between tokens. -/
  | blanks (text : Text)
  /-- Digits with at most one point. -/
  | number (text : Text)
  /-- What stands between two quotes, escapes unread. -/
  | quoted (quote : Char) (body : Text)
  /-- A word, perhaps with a dollar sign in front. -/
  | word (dollar : Bool) (letters : Text)
  /-- A symbol. -/
  | symbol (symbol : Symbol)
  deriving DecidableEq, Repr

namespace Lexeme

/-- The characters of a lexeme. -/
def text : Lexeme → Text
  | blanks t => t
  | number t => t
  | quoted quote body => quote :: body ++ [quote]
  | word dollar letters => if dollar then '$' :: letters else letters
  | symbol s => s.text.toList

/-- A number at the beginning of a text: digits, which a point and more digits may follow, or a
point with at least one digit behind it. -/
def number? (text : Text) : Option Lexeme :=
  let (whole, rest) := Numeral.readDigits text
  match rest with
  | '.' :: rest =>
    let fraction := rest.takeWhile Text.isDigit
    if whole.isEmpty && fraction.isEmpty then none else some (number (whole ++ '.' :: fraction))
  | _ => if whole.isEmpty then none else some (number whole)

/-- The characters up to the closing quote; a backslash takes the next one along. -/
def bodyUpTo? (quote : Char) : Text → Option Text
  | [] => none
  | '\\' :: c :: rest => (bodyUpTo? quote rest).map ('\\' :: c :: ·)
  | c :: rest =>
    if c = quote then some []
    else if c = '\\' then none
    else (bodyUpTo? quote rest).map (c :: ·)

/-- A quoted text at the beginning of a text. -/
def quoted? : Text → Option Lexeme
  | c :: rest => if c = '\'' ∨ c = '"' then (bodyUpTo? c rest).map (quoted c) else none
  | [] => none

/-- An identifier at the beginning of a text as a word. -/
def wordOf? (dollar : Bool) (text : Text) : Option Lexeme :=
  let letters := Text.identifier text
  if letters.isEmpty then none else some (word dollar letters)

/-- A word at the beginning of a text. -/
def word? : Text → Option Lexeme
  | '$' :: rest => wordOf? true rest
  | text => wordOf? false text

/-- The symbols, those of two characters before those of one. -/
def symbols : List Symbol :=
  [.andAnd, .orOr, .equal, .notEqual, .lessGreater, .lessEqual, .greaterEqual,
   .minus, .plus, .times, .divide, .percent, .less, .greater,
   .bang, .question, .colon, .openParen, .closeParen]

/-- A symbol at the beginning of a text. -/
def symbol? (text : Text) : Option Lexeme :=
  (symbols.find? fun s => s.text.toList.isPrefixOf text).map symbol

/-- Blanks at the beginning of a text. -/
def blanks? (text : Text) : Option Lexeme :=
  let run := text.takeWhile Text.isBlank
  if run.isEmpty then none else some (blanks run)

/-- The lexeme at the beginning of a text. -/
def first? (text : Text) : Option Lexeme :=
  blanks? text <|> number? text <|> quoted? text <|> word? text <|> symbol? text

/-- What a character behind a backslash stands for. -/
def escape (c : Char) : Char :=
  if c = 'n' then '\n'
  else if c = 't' then '\t'
  else if c = 'r' then '\r'
  else if c = '0' then '\x00'
  else c

/-- The text that a quoted body stands for. -/
def unescape : Text → Text
  | '\\' :: c :: rest => escape c :: unescape rest
  | c :: rest => c :: unescape rest
  | [] => []

/-- The token that a lexeme is; blanks are none. -/
def token? (position : Nat) : Lexeme → Except SyntaxError (Option Token)
  | blanks _ => .ok none
  | number text =>
    let (whole, rest) := Numeral.readDigits text
    match rest with
    | '.' :: fraction =>
      .ok (some (.number (.float
        (.ofDecimal false (Text.natOfDigits (whole ++ fraction)) (-(fraction.length : Int))))))
    | _ =>
      match Text.readNat whole with
      | .ok n => .ok (some (.number (.int n)))
      | .error fault => .error (.invalidNumber position fault)
  | quoted _ body => .ok (some (.string (unescape body)))
  | word dollar letters =>
    match dollar, Keyword.ofWord? letters with
    | false, some keyword => .ok (some (.keyword keyword))
    | _, _ => .ok (some (.name letters))
  | symbol s => .ok (some (.symbol s))

theorem text_ne_nil_of_first? {text : Text} {lexeme : Lexeme} (h : first? text = some lexeme) :
    lexeme.text ≠ [] := by
  simp only [first?, Option.orElse_eq_orElse, Option.orElse_eq_or, Option.or_eq_some_iff] at h
  rcases h with h | ⟨-, h | ⟨-, h | ⟨-, h | ⟨-, h⟩⟩⟩⟩
  · simp only [blanks?] at h
    split at h
    · simp at h
    · simp only [Option.some.injEq] at h
      subst h
      simp_all [Lexeme.text]
  · simp only [number?] at h
    split at h
    · split at h
      · simp at h
      · simp only [Option.some.injEq] at h
        subst h
        simp [Lexeme.text]
    · split at h
      · simp at h
      · simp only [Option.some.injEq] at h
        subst h
        simp_all [Lexeme.text]
  · simp only [quoted?] at h
    split at h
    · split at h
      · obtain ⟨body, -, rfl⟩ := Option.map_eq_some_iff.1 h
        simp [Lexeme.text]
      · simp at h
    · simp at h
  · have key (dollar : Bool) (rest : Text) (h : wordOf? dollar rest = some lexeme) :
        lexeme.text ≠ [] := by
      simp only [wordOf?] at h
      split at h
      · simp at h
      · simp only [Option.some.injEq] at h
        subst h
        simp only [Lexeme.text]
        split <;> simp_all
    simp only [word?] at h
    split at h <;> exact key _ _ h
  · simp only [symbol?] at h
    obtain ⟨s, -, rfl⟩ := Option.map_eq_some_iff.1 h
    cases s <;> simp [Lexeme.text, Symbol.text]

theorem length_text_pos {text : Text} {lexeme : Lexeme} (h : first? text = some lexeme) :
    0 < lexeme.text.length := List.length_pos_iff.2 (text_ne_nil_of_first? h)

end Lexeme

/-- The tokens of a text that begins at an offset. -/
def tokensFrom (position : Nat) (text : Text) : Except SyntaxError (List Located) :=
  match text with
  | [] => .ok []
  | c :: rest =>
    match found : Lexeme.first? (c :: rest) with
    | none => .error (.unexpectedCharacter c position)
    | some lexeme =>
      have := Lexeme.length_text_pos found
      do
      let token? ← lexeme.token? position
      let others ← tokensFrom (position + lexeme.text.length)
        ((c :: rest).drop lexeme.text.length)
      return match token? with
        | some token => ⟨token, position⟩ :: others
        | none => others
termination_by text.length

/-- The tokens of a condition with their positions. -/
def tokens (source : Text) : Except SyntaxError (List Located) := tokensFrom 0 source

end Condition

end SqlTemplate
