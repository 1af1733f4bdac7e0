import SqlTemplate.Condition.Lexer
import SqlTemplate.Proofs.Number.Grammar
import SqlTemplate.Proofs.Text.Identifier

/-!
# Lexemes and the text they come from

A lexeme has a form of its own (`Lexeme.IsWellFormed`), and there are characters with which it could
go on (`Lexeme.goesOn`). **What `Lexeme.first?` reads is a lexeme at the beginning of the text, and
it goes as far as it can** (`Lexeme.first?_eq_some_iff`): nothing else in the text matters than the
one character behind it. `tokensFrom` goes on there.
-/

namespace SqlTemplate

namespace Condition

namespace Lexeme

/-! ### What a lexeme is -/

/-- What can stand between two quotes: characters other than the quote and the backslash, and any
character behind a backslash. -/
inductive IsBody (quote : Char) : Text → Prop where
  /-- Nothing. -/
  | nil : IsBody quote []
  /-- A character that stands for itself. -/
  | plain {c : Char} {rest : Text} :
      c ≠ quote → c ≠ '\\' → IsBody quote rest → IsBody quote (c :: rest)
  /-- A character behind a backslash. -/
  | escaped (c : Char) {rest : Text} : IsBody quote rest → IsBody quote ('\\' :: c :: rest)

/-- Which lexemes there are. -/
inductive IsWellFormed : Lexeme → Prop where
  /-- A row of blanks. -/
  | blanks {text : Text} :
      text ≠ [] → (∀ c ∈ text, Text.isBlank c = true) → IsWellFormed (.blanks text)
  /-- A row of digits. -/
  | digits {whole : Text} :
      whole ≠ [] → (∀ c ∈ whole, Text.isDigit c = true) → IsWellFormed (.number whole)
  /-- Digits around a point, at least one on one side of it. -/
  | pointed {whole fraction : Text} :
      whole ++ fraction ≠ [] → (∀ c ∈ whole ++ fraction, Text.isDigit c = true) →
      IsWellFormed (.number (whole ++ '.' :: fraction))
  /-- A text in quotes. -/
  | quoted (quote : Quote) {body : Text} :
      IsBody quote.char body → IsWellFormed (.quoted quote.char body)
  /-- An identifier, perhaps with a dollar sign. -/
  | word (dollar : Bool) {letters : Text} :
      Text.IsIdentifier letters → IsWellFormed (.word dollar letters)
  /-- A symbol. -/
  | symbol (s : Symbol) : IsWellFormed (.symbol s)

/-- Whether a character behind a lexeme would make it a longer one. -/
def goesOn : Lexeme → Char → Bool
  | blanks _, c => Text.isBlank c
  | number text, c => Text.isDigit c || (c == '.' && !text.contains '.')
  | quoted _ _, _ => false
  | word _ _, c => Text.isIdentifierPart c
  | symbol s, c => symbols.any fun longer => longer.text.toList == s.text.toList ++ [c]

/-- Whether a lexeme with a text behind it ends where the text begins. -/
def EndsBefore (lexeme : Lexeme) (rest : Text) : Prop :=
  ∀ c ∈ rest.head?, lexeme.goesOn c = false

theorem endsBefore_nil (lexeme : Lexeme) : lexeme.EndsBefore [] := nofun

/-- Only the first character behind a lexeme matters. -/
theorem EndsBefore.of_prefix {lexeme : Lexeme} {rest front : Text} (h : lexeme.EndsBefore rest)
    (hFront : front <+: rest) : lexeme.EndsBefore front := by
  intro c hc
  obtain ⟨back, rfl⟩ := hFront
  cases front with
  | nil => cases hc
  | cons d front => exact h c hc

theorem goesOn_number {whole : Text} (hWhole : ∀ c ∈ whole, Text.isDigit c = true) (c : Char) :
    (number whole).goesOn c = (Text.isDigit c || c == '.') := by
  have hPoint : '.' ∉ whole := fun h => absurd (hWhole '.' h) (by decide)
  simp [goesOn, hPoint]

theorem goesOn_pointed (whole fraction : Text) (c : Char) :
    (number (whole ++ '.' :: fraction)).goesOn c = Text.isDigit c := by
  simp [goesOn]

/-! ### What stands at the beginning of a lexeme -/

variable {c : Char} {rest : Text}

theorem blanks?_eq_none (h : Text.isBlank c = false) : blanks? (c :: rest) = none := by
  simp [blanks?, h]

theorem number?_eq_none (hDigit : Text.isDigit c = false) (hPoint : c ≠ '.') :
    number? (c :: rest) = none := by
  simp [number?, Numeral.readDigits, hDigit, hPoint]

theorem quoted?_eq_none (hSingle : c ≠ '\'') (hDouble : c ≠ '"') : quoted? (c :: rest) = none := by
  simp [quoted?, hSingle, hDouble]

theorem word?_eq_none (hDollar : c ≠ '$') (hStart : Text.isIdentifierStart c = false) :
    word? (c :: rest) = none := by
  simp [word?, wordOf?, Text.identifier, hDollar, hStart]

/-! ### What each kind reads -/

theorem blanks?_append {run : Text} (hne : run ≠ []) (hRun : ∀ c ∈ run, Text.isBlank c = true)
    (hRest : (blanks run).EndsBefore rest) : blanks? (run ++ rest) = some (blanks run) := by
  rw [blanks?, Text.takeWhile_run hRun hRest]
  exact if_neg (by rwa [List.isEmpty_iff])

theorem exists_of_blanks? {text : Text} {lexeme : Lexeme} (h : blanks? text = some lexeme) :
    lexeme.IsWellFormed ∧ ∃ rest, text = lexeme.text ++ rest ∧ lexeme.EndsBefore rest := by
  obtain ⟨run, rest, rfl, hRun, hRest⟩ := Text.exists_run Text.isBlank text
  simp only [blanks?, Text.takeWhile_run hRun hRest] at h
  rw [Option.ite_none_left_eq_some, List.isEmpty_iff] at h
  obtain ⟨hne, h⟩ := h
  cases h
  exact ⟨.blanks hne hRun, rest, rfl, hRest⟩

theorem number?_digits {whole : Text} (hne : whole ≠ [])
    (hWhole : ∀ c ∈ whole, Text.isDigit c = true) (hRest : (number whole).EndsBefore rest) :
    number? (whole ++ rest) = some (number whole) := by
  have hStop : ∀ c ∈ rest.head?, Text.isDigit c = false ∧ c ≠ '.' := by
    intro c hc
    have hEnd := hRest c hc
    rw [goesOn_number hWhole, Bool.or_eq_false_iff, beq_eq_false_iff_ne] at hEnd
    exact hEnd
  have hRead := Numeral.readDigits_run hWhole fun c hc => (hStop c hc).1
  rw [number?, hRead]
  cases rest with
  | nil => simp [hne]
  | cons c rest =>
    have hPoint := (hStop c rfl).2
    simp [hne, hPoint]

theorem number?_pointed {whole fraction : Text} (hne : whole ++ fraction ≠ [])
    (hDigits : ∀ c ∈ whole ++ fraction, Text.isDigit c = true)
    (hRest : (number (whole ++ '.' :: fraction)).EndsBefore rest) :
    number? (whole ++ '.' :: (fraction ++ rest)) = some (number (whole ++ '.' :: fraction)) := by
  have hWhole : ∀ c ∈ whole, Text.isDigit c = true :=
    fun c hc => hDigits c (List.mem_append_left _ hc)
  have hFraction : ∀ c ∈ fraction, Text.isDigit c = true :=
    fun c hc => hDigits c (List.mem_append_right _ hc)
  have hStop : ∀ c ∈ rest.head?, Text.isDigit c = false := by
    intro c hc
    rw [← goesOn_pointed whole fraction c]
    exact hRest c hc
  have hRead : Numeral.readDigits (whole ++ '.' :: (fraction ++ rest)) =
      (whole, '.' :: (fraction ++ rest)) := by
    refine Numeral.readDigits_run hWhole fun c hc => ?_
    cases hc
    decide
  have hSides : ¬(whole.isEmpty && fraction.isEmpty) = true := by
    rw [Bool.and_eq_true, List.isEmpty_iff, List.isEmpty_iff, ← List.append_eq_nil_iff]
    exact hne
  rw [number?, hRead]
  simp only [Text.takeWhile_run hFraction hStop]
  rw [if_neg hSides]

/-- A number is read as far as it goes. -/
theorem exists_of_number? {text : Text} {lexeme : Lexeme} (h : number? text = some lexeme) :
    lexeme.IsWellFormed ∧ ∃ rest, text = lexeme.text ++ rest ∧ lexeme.EndsBefore rest := by
  obtain ⟨whole, tail, rfl, hWhole, hTail⟩ := Text.exists_run Text.isDigit text
  simp only [number?, Numeral.readDigits_run hWhole hTail] at h
  split at h
  next point =>
    obtain ⟨fraction, rest, rfl, hFraction, hRest⟩ := Text.exists_run Text.isDigit point
    rw [Text.takeWhile_run hFraction hRest, Option.ite_none_left_eq_some] at h
    obtain ⟨hne, h⟩ := h
    cases h
    rw [Bool.and_eq_true, List.isEmpty_iff, List.isEmpty_iff, ← List.append_eq_nil_iff] at hne
    refine ⟨.pointed hne ?_, rest, by simp [Lexeme.text], fun c hc => ?_⟩
    · exact fun c hc => (List.mem_append.mp hc).elim (hWhole c) (hFraction c)
    · rw [goesOn_pointed]
      exact hRest c hc
  next hPoint =>
    rw [Option.ite_none_left_eq_some, List.isEmpty_iff] at h
    obtain ⟨hne, h⟩ := h
    cases h
    refine ⟨.digits hne hWhole, tail, rfl, fun c hc => ?_⟩
    rw [goesOn_number hWhole, hTail c hc, Bool.false_or, beq_eq_false_iff_ne]
    rintro rfl
    cases tail with
    | nil => cases hc
    | cons d tail =>
      cases hc
      exact hPoint tail rfl

/-- The closing quote is the first one without a backslash in front. -/
theorem bodyUpTo?_eq_some_iff {quote : Quote} {text body : Text} :
    bodyUpTo? quote.char text = some body ↔
      IsBody quote.char body ∧ ∃ rest, text = body ++ quote.char :: rest := by
  constructor
  · intro h
    generalize hQuote : quote.char = q at h
    fun_induction bodyUpTo? q text generalizing body with
    | case1 => cases h
    | case2 c rest ih =>
      obtain ⟨inner, hInner, rfl⟩ := Option.map_eq_some_iff.mp h
      obtain ⟨hBody, tail, rfl⟩ := ih hInner
      exact ⟨.escaped c hBody, tail, rfl⟩
    | case3 rest =>
      cases h
      exact ⟨.nil, rest, rfl⟩
    | case4 => cases h
    | case5 c rest _ hPlain hBackslash ih =>
      obtain ⟨inner, hInner, rfl⟩ := Option.map_eq_some_iff.mp h
      obtain ⟨hBody, tail, rfl⟩ := ih hInner
      exact ⟨.plain hPlain hBackslash hBody, tail, rfl⟩
  · rintro ⟨hBody, rest, rfl⟩
    induction hBody with
    | nil => cases quote <;> simp [bodyUpTo?, Quote.char]
    | plain hQuote hBackslash _ ih => simp [bodyUpTo?, hQuote, hBackslash, ih]
    | escaped c _ ih => simp [bodyUpTo?, ih]

theorem exists_of_quoted? {text : Text} {lexeme : Lexeme} (h : quoted? text = some lexeme) :
    lexeme.IsWellFormed ∧ ∃ rest, text = lexeme.text ++ rest ∧ lexeme.EndsBefore rest := by
  cases text with
  | nil => cases h
  | cons c tail =>
    rw [quoted?, Option.ite_none_right_eq_some] at h
    obtain ⟨hQuote, h⟩ := h
    obtain ⟨quote, rfl⟩ : ∃ quote : Quote, quote.char = c := by
      rcases hQuote with rfl | rfl
      · exact ⟨.single, rfl⟩
      · exact ⟨.double, rfl⟩
    obtain ⟨body, hRead, rfl⟩ := Option.map_eq_some_iff.mp h
    obtain ⟨hBody, rest, rfl⟩ := bodyUpTo?_eq_some_iff.mp hRead
    exact ⟨.quoted quote hBody, rest, by simp [Lexeme.text], fun _ _ => rfl⟩

theorem wordOf?_append {letters : Text} (h : Text.IsIdentifier letters) (dollar : Bool)
    (hRest : (word dollar letters).EndsBefore rest) :
    wordOf? dollar (letters ++ rest) = some (word dollar letters) := by
  rw [wordOf?, Text.identifier_append_of_head? h fun c hc => ne_true_of_eq_false (hRest c hc)]
  exact if_neg (by rw [List.isEmpty_iff]; exact h.1)

theorem exists_of_wordOf? {dollar : Bool} {text : Text} {lexeme : Lexeme}
    (h : wordOf? dollar text = some lexeme) :
    ∃ letters rest, text = letters ++ rest ∧ Text.IsIdentifier letters ∧
      lexeme = word dollar letters ∧ lexeme.EndsBefore rest := by
  simp only [wordOf?] at h
  rw [Option.ite_none_left_eq_some, List.isEmpty_iff] at h
  obtain ⟨hne, h⟩ := h
  cases h
  obtain ⟨hIdentifier, rest, hText, hRest⟩ := Text.exists_append_of_identifier hne
  exact ⟨_, rest, hText, hIdentifier, rfl, fun c hc => Bool.eq_false_iff.mpr (hRest c hc)⟩

theorem exists_of_word? {text : Text} {lexeme : Lexeme} (h : word? text = some lexeme) :
    lexeme.IsWellFormed ∧ ∃ rest, text = lexeme.text ++ rest ∧ lexeme.EndsBefore rest := by
  simp only [word?] at h
  split at h
  · obtain ⟨letters, rest, rfl, hLetters, rfl, hRest⟩ := exists_of_wordOf? h
    exact ⟨.word true hLetters, rest, rfl, hRest⟩
  · obtain ⟨letters, rest, rfl, hLetters, rfl, hRest⟩ := exists_of_wordOf? h
    exact ⟨.word false hLetters, rest, rfl, hRest⟩

/-- A symbol that goes on with a character is one of two characters, and no symbol has three. -/
theorem endsBefore_of_longer {s longer : Symbol} (h : longer.text.toList = s.text.toList ++ [c])
    (rest : Text) : (symbol longer).EndsBefore rest := by
  have hLengths : ∀ s ∈ symbols, 1 ≤ s.text.toList.length ∧ s.text.toList.length ≤ 2 := by decide
  have hMem (s : Symbol) : s ∈ symbols := by cases s <;> decide
  intro d _
  rw [goesOn, List.any_eq_false]
  intro longest hLongest hText
  have hLongestLength := congrArg List.length (eq_of_beq hText)
  have hLongerLength := congrArg List.length h
  rw [List.length_append, List.length_singleton] at hLongestLength hLongerLength
  have hShort := (hLengths s (hMem s)).1
  have hBound := (hLengths longest hLongest).2
  omega

theorem symbol?_append (s : Symbol) (hRest : (symbol s).EndsBefore rest) :
    symbol? (s.text.toList ++ rest) = some (symbol s) := by
  cases rest with
  | nil => cases s <;> rfl
  | cons c rest =>
    have hEnd := hRest c rfl
    cases s <;> simp_all [goesOn, symbol?, symbols, Symbol.text]

theorem exists_of_symbol? {text : Text} {lexeme : Lexeme} (h : symbol? text = some lexeme) :
    lexeme.IsWellFormed ∧ ∃ rest, text = lexeme.text ++ rest ∧ lexeme.EndsBefore rest := by
  obtain ⟨s, hs, rfl⟩ := Option.map_eq_some_iff.mp h
  have hPrefix := List.find?_some hs
  obtain ⟨rest, rfl⟩ := List.isPrefixOf_iff_prefix.mp hPrefix
  refine ⟨.symbol s, rest, rfl, fun c hc => ?_⟩
  rw [goesOn, List.any_eq_false]
  intro longer _ hText
  -- A longer symbol would have been found before this one.
  have hLonger := eq_of_beq hText
  obtain ⟨tail, rfl⟩ : ∃ tail, rest = c :: tail := by
    cases rest with
    | nil => cases hc
    | cons d tail =>
      cases hc
      exact ⟨tail, rfl⟩
  rw [List.append_cons, ← hLonger, symbol?_append longer (endsBefore_of_longer hLonger tail)] at h
  rw [Option.some.inj h |> Lexeme.symbol.inj] at hLonger
  simp at hLonger

/-! ### What is read first -/

theorem first?_of_number? {lexeme : Lexeme} (h : Text.isDigit c = true ∨ c = '.')
    (hNumber : number? (c :: rest) = some lexeme) : first? (c :: rest) = some lexeme := by
  have hBlank : Text.isBlank c = false := by
    rcases h with hDigit | rfl
    · exact Text.isBlank_of_isDigit hDigit
    · decide
  simp [first?, blanks?_eq_none hBlank, hNumber]

theorem first?_of_quoted? {lexeme : Lexeme} {quote : Quote}
    (h : quoted? (quote.char :: rest) = some lexeme) :
    first? (quote.char :: rest) = some lexeme := by
  have hBlanks : blanks? (quote.char :: rest) = none :=
    blanks?_eq_none (by cases quote <;> decide)
  have hNumber : number? (quote.char :: rest) = none :=
    number?_eq_none (by cases quote <;> decide) (by cases quote <;> decide)
  simp [first?, hBlanks, hNumber, h]

theorem first?_of_word? {lexeme : Lexeme} (h : c = '$' ∨ Text.isIdentifierStart c = true)
    (hWord : word? (c :: rest) = some lexeme) : first? (c :: rest) = some lexeme := by
  have hOthers : Text.isBlank c = false ∧ Text.isDigit c = false ∧
      c ≠ '.' ∧ c ≠ '\'' ∧ c ≠ '"' := by
    rcases h with rfl | hStart
    · decide
    · obtain ⟨hLow, hHigh⟩ := Text.range_of_isIdentifierStart hStart
      have hne (d : Char) (hd : d.toNat < 58) : c ≠ d := by
        rintro rfl
        omega
      exact ⟨Text.isBlank_eq_false_of_range (Nat.le_trans (by decide) hLow) hHigh,
        Text.isDigit_eq_false_of_range hLow hHigh, hne _ (by decide), hne _ (by decide),
        hne _ (by decide)⟩
  obtain ⟨hBlank, hDigit, hPoint, hSingle, hDouble⟩ := hOthers
  simp [first?, blanks?_eq_none hBlank, number?_eq_none hDigit hPoint,
    quoted?_eq_none hSingle hDouble, hWord]

theorem first?_of_symbol? {s : Symbol} {text : Text}
    (h : symbol? (s.text.toList ++ text) = some (symbol s)) :
    first? (s.text.toList ++ text) = some (symbol s) := by
  have hHead : ∃ c tail, s.text.toList = c :: tail ∧ Text.isBlank c = false ∧
      Text.isDigit c = false ∧ c ≠ '.' ∧ c ≠ '\'' ∧ c ≠ '"' ∧ c ≠ '$' ∧
      Text.isIdentifierStart c = false := by
    cases s <;> exact ⟨_, _, rfl, by decide⟩
  obtain ⟨c, tail, hText, hBlank, hDigit, hPoint, hSingle, hDouble, hDollar, hStart⟩ := hHead
  rw [hText, List.cons_append] at h ⊢
  simp [first?, blanks?_eq_none hBlank, number?_eq_none hDigit hPoint,
    quoted?_eq_none hSingle hDouble, word?_eq_none hDollar hStart, h]

/-- A lexeme is read in front of any text with which it does not go on. -/
theorem first?_append {lexeme : Lexeme} (h : lexeme.IsWellFormed)
    (hRest : lexeme.EndsBefore rest) : first? (lexeme.text ++ rest) = some lexeme := by
  cases h with
  | blanks hne hBlanks => simp [first?, Lexeme.text, blanks?_append hne hBlanks hRest]
  | @digits whole hne hWhole =>
    have hNumber := number?_digits hne hWhole hRest
    cases whole with
    | nil => exact absurd rfl hne
    | cons d whole => exact first?_of_number? (.inl (hWhole d List.mem_cons_self)) hNumber
  | @pointed whole fraction hne hDigits =>
    have hNumber := number?_pointed hne hDigits hRest
    rw [Lexeme.text, List.append_assoc, List.cons_append]
    cases whole with
    | nil => exact first?_of_number? (.inr rfl) hNumber
    | cons d whole => exact first?_of_number? (.inl (hDigits d List.mem_cons_self)) hNumber
  | @quoted quote body hBody =>
    have hRead := bodyUpTo?_eq_some_iff.mpr ⟨hBody, rest, rfl⟩
    have hQuote : quote.char = '\'' ∨ quote.char = '"' := by cases quote <;> decide
    rw [Lexeme.text, List.append_assoc, List.cons_append]
    refine first?_of_quoted? ?_
    rw [quoted?, if_pos hQuote, List.singleton_append, hRead]
    rfl
  | @word dollar letters hLetters =>
    have hWord := wordOf?_append hLetters dollar hRest
    cases dollar with
    | true => exact first?_of_word? (.inl rfl) hWord
    | false =>
      obtain ⟨d, letters, rfl, hStart, -⟩ := Text.exists_cons_of_isIdentifier hLetters
      refine first?_of_word? (.inr hStart) ?_
      unfold word?
      split
      next hDollar =>
        cases hDollar
        cases hStart
      next => exact hWord
  | symbol s => exact first?_of_symbol? (symbol?_append s hRest)

/-- The five kinds of lexemes, in the order in which they are tried. -/
theorem first?_cases {text : Text} {lexeme : Lexeme} (h : first? text = some lexeme) :
    blanks? text = some lexeme ∨ number? text = some lexeme ∨ quoted? text = some lexeme ∨
      word? text = some lexeme ∨ symbol? text = some lexeme := by
  simp only [first?, Option.orElse_eq_orElse, Option.orElse_eq_or, Option.or_eq_some_iff] at h
  rcases h with h | ⟨-, h | ⟨-, h | ⟨-, h | ⟨-, h⟩⟩⟩⟩ <;> simp only [h, true_or, or_true]

/-- What is read is a lexeme that goes as far as it can. -/
theorem exists_of_first? {text : Text} {lexeme : Lexeme} (h : first? text = some lexeme) :
    lexeme.IsWellFormed ∧ ∃ rest, text = lexeme.text ++ rest ∧ lexeme.EndsBefore rest := by
  rcases first?_cases h with h | h | h | h | h
  · exact exists_of_blanks? h
  · exact exists_of_number? h
  · exact exists_of_quoted? h
  · exact exists_of_word? h
  · exact exists_of_symbol? h

/-- **What is read from the beginning of a text is the lexeme that stands there and does not go on
with the character behind it.** -/
theorem first?_eq_some_iff {text : Text} {lexeme : Lexeme} :
    first? text = some lexeme ↔
      lexeme.IsWellFormed ∧ ∃ rest, text = lexeme.text ++ rest ∧ lexeme.EndsBefore rest := by
  refine ⟨exists_of_first?, ?_⟩
  rintro ⟨h, rest, rfl, hRest⟩
  exact first?_append h hRest

/-- A lexeme stands at the beginning of the text it is read from. -/
theorem prefix_of_first? {text : Text} {lexeme : Lexeme} (h : first? text = some lexeme) :
    lexeme.text <+: text := by
  obtain ⟨-, rest, rfl, -⟩ := exists_of_first? h
  exact List.prefix_append _ _

end Lexeme

/-! ### Reading lexeme after lexeme -/

theorem tokensFrom_nil (position : Nat) : tokensFrom position [] = .ok [] := by
  unfold tokensFrom
  rfl

/-- The tokens of a text are that of its first lexeme and those of what stands behind it. -/
theorem tokensFrom_of_first? {c : Char} {rest : Text} {lexeme : Lexeme}
    (h : Lexeme.first? (c :: rest) = some lexeme) (position : Nat) :
    tokensFrom position (c :: rest) = do
      let token? ← lexeme.token? position
      let others ← tokensFrom (position + lexeme.text.length)
        ((c :: rest).drop lexeme.text.length)
      return match token? with
        | some token => ⟨token, position⟩ :: others
        | none => others := by
  rw [tokensFrom.eq_def]
  simp only
  split
  next h' => cases h.symm.trans h'
  next lexeme' h' =>
    cases h.symm.trans h'
    rfl

/-- Where no lexeme begins, reading ends. -/
theorem tokensFrom_of_first?_none {c : Char} {rest : Text}
    (h : Lexeme.first? (c :: rest) = none) (position : Nat) :
    tokensFrom position (c :: rest) = .error (.unexpectedCharacter c position) := by
  rw [tokensFrom.eq_def]
  simp only
  split
  next => rfl
  next h' => cases h.symm.trans h'

/-- A lexeme in front of a text that can be read adds its token, if it is one. -/
theorem tokensFrom_append {lexeme : Lexeme} {rest : Text} {position : Nat} {token? : Option Token}
    {others : List Located} (hFirst : Lexeme.first? (lexeme.text ++ rest) = some lexeme)
    (hToken : lexeme.token? position = .ok token?)
    (hOthers : tokensFrom (position + lexeme.text.length) rest = .ok others) :
    tokensFrom position (lexeme.text ++ rest) =
      .ok ((token?.map (⟨·, position⟩)).toList ++ others) := by
  cases hText : lexeme.text ++ rest with
  | nil => exact absurd (List.append_eq_nil_iff.mp hText).1 (Lexeme.text_ne_nil_of_first? hFirst)
  | cons c tail =>
    rw [hText] at hFirst
    rw [tokensFrom_of_first? hFirst, ← hText, List.drop_left, hToken, hOthers]
    cases token? <;> rfl

/-- A text whose tokens can be read begins with a lexeme, and what stands behind it can be read
too. -/
theorem tokensFrom_cons_isOk {position : Nat} {c : Char} {rest : Text}
    (h : (tokensFrom position (c :: rest)).isOk) :
    ∃ lexeme, Lexeme.first? (c :: rest) = some lexeme ∧
      (tokensFrom (position + lexeme.text.length)
        ((c :: rest).drop lexeme.text.length)).isOk := by
  cases hFirst : Lexeme.first? (c :: rest) with
  | none =>
    rw [tokensFrom_of_first?_none hFirst] at h
    cases h
  | some lexeme =>
    refine ⟨lexeme, rfl, ?_⟩
    rw [tokensFrom_of_first? hFirst] at h
    cases hToken : lexeme.token? position with
    | error e =>
      rw [hToken] at h
      cases h
    | ok token? =>
      rw [hToken] at h
      cases hOthers : tokensFrom (position + lexeme.text.length)
          ((c :: rest).drop lexeme.text.length) with
      | ok others => rfl
      | error e =>
        simp only [bind, Except.bind, hOthers] at h
        cases h

end Condition

end SqlTemplate
