import SqlTemplate.Condition.Printer
import SqlTemplate.Proofs.Condition.Completeness
import SqlTemplate.Proofs.Condition.Names
import SqlTemplate.Proofs.Condition.Segmentation

/-!
# Reading a condition that was written

A token is written as a lexeme that is read as this token (`Lexeme.exists_written`), and the tokens
of a condition are written with blanks between them, so they are read back
(`exists_tokens_written`). The tokens of an expression are in the grammar of the expression
(`Expr.derives_tokensAt`). So **an expression that is written as a condition is compiled to the same
expression** (`compile_print`), unless the nesting limit is hit.
-/

namespace SqlTemplate

namespace Condition

/-- Whether a token can be written and is read as the same token. -/
def Token.IsWritable : Token → Prop
  | number n => (Literal.number n).IsWritable
  | name s => Text.IsIdentifier s
  | _ => True

namespace Lexeme

/-- A number that may be written is read as itself. -/
theorem isOf_ofNat {n : Nat} (h : (Text.writeInt n).isOk) :
    (number (Text.ofNat n)).IsOf (.number (.int n)) := by
  intro position
  have hRead : Numeral.readDigits (Text.ofNat n) = (Text.ofNat n, []) := by
    have hAppend : Numeral.readDigits (Text.ofNat n ++ []) = (Text.ofNat n, []) :=
      Numeral.readDigits_run (fun _ hc => Text.isDigit_of_ascii (Text.isDigit_of_mem_ofNat hc))
        nofun
    rwa [List.append_nil] at hAppend
  simp only [token?, hRead, Text.readNat_of_isOk h]

/-! ### Quoted texts -/

theorem escape_quote (quote : Quote) : escape quote.char = quote.char := by cases quote <;> rfl

/-- The only quote that is not escaped is the closing one. -/
theorem isBody_escaped (quote : Quote) (s : Text) :
    IsBody quote.char (s.flatMap (Token.escaped quote)) := by
  induction s with
  | nil => exact .nil
  | cons c s ih =>
    rw [List.flatMap_cons, Token.escaped]
    split
    next => exact .escaped c ih
    next hc => exact .plain (fun h => hc (.inr h)) (fun h => hc (.inl h)) ih

/-- A text is read from its quotes as it was. -/
theorem unescape_escaped (quote : Quote) (s : Text) :
    unescape (s.flatMap (Token.escaped quote)) = s := by
  induction s with
  | nil => rfl
  | cons c s ih =>
    rw [List.flatMap_cons]
    by_cases hc : c = '\\' ∨ c = quote.char
    · have hEscape : escape c = c := by
        rcases hc with rfl | rfl
        · rfl
        · exact escape_quote quote
      simp [Token.escaped, hc, unescape, ih, hEscape]
    · rw [not_or] at hc
      simp [Token.escaped, hc, unescape, ih]

/-- **A token is written as a lexeme that is this token.** -/
theorem exists_written {t : Token} (h : t.IsWritable) (quotes : Text → Quote) :
    ∃ lexeme : Lexeme,
      lexeme.text = t.written quotes ∧ lexeme.IsWellFormed ∧ lexeme.IsOf t := by
  cases t with
  | number n =>
    cases n with
    | int n =>
      obtain ⟨hSign, hLimit⟩ := h
      obtain ⟨n, rfl⟩ := Int.eq_ofNat_of_zero_le hSign
      have hDigits : ∀ c ∈ Text.ofNat n, Text.isDigit c = true :=
        fun _ hc => Text.isDigit_of_ascii (Text.isDigit_of_mem_ofNat hc)
      exact ⟨number (Text.ofNat n), rfl, .digits (Text.ofNat_ne_nil n) hDigits, isOf_ofNat hLimit⟩
    | float x => exact h.elim
    | decimal d => exact h.elim
  | string s =>
    refine ⟨_, rfl, .quoted (quotes s) (isBody_escaped (quotes s) s), fun position => ?_⟩
    rw [token?, unescape_escaped]
  | name name => exact ⟨word true name, rfl, .word true h, fun _ => rfl⟩
  | keyword k =>
    refine ⟨word false k.text.toList, rfl, .word false ?_, fun _ => ?_⟩
    · cases k <;> exact ⟨by decide, by decide⟩
    · cases k <;> rfl
  | symbol s => exact ⟨symbol s, rfl, .symbol s, fun _ => rfl⟩

end Lexeme

/-! ### Token after token -/

/-- Lexemes with a blank between two of them. -/
theorem spelled_spaced (first : Lexeme) (others : List Lexeme) :
    spelled (([], first) :: others.map ([' '], ·)) [] =
      [' '].intercalate ((first :: others).map Lexeme.text) := by
  induction others generalizing first with
  | nil => simp [spelled]
  | cons second others ih =>
    have hRest := ih second
    rw [List.map_cons] at hRest
    rw [List.map_cons, List.map_cons, List.map_cons, List.intercalate_cons_cons, ← hRest]
    simp [spelled]

/-- **Tokens that are written with blanks between them are read as the same tokens.** -/
theorem exists_tokens_written (quotes : Text → Quote) {ts : List Token}
    (h : ∀ t ∈ ts, t.IsWritable) :
    ∃ located, tokens ([' '].intercalate (ts.map (Token.written quotes))) = .ok located ∧
      located.map Located.token = ts := by
  obtain ⟨lexemes, hText, hLexemes⟩ : ∃ lexemes : List Lexeme,
      lexemes.map Lexeme.text = ts.map (Token.written quotes) ∧
        List.Forall₂ (fun lexeme t => lexeme.IsWellFormed ∧ lexeme.IsOf t) lexemes ts := by
    induction ts with
    | nil => exact ⟨[], rfl, .nil⟩
    | cons t ts ih =>
      obtain ⟨hFirst, hRest⟩ := List.forall_mem_cons.mp h
      obtain ⟨lexeme, hText, hLexeme⟩ := Lexeme.exists_written hFirst quotes
      obtain ⟨lexemes, hTexts, hLexemes⟩ := ih hRest
      exact ⟨lexeme :: lexemes, by rw [List.map_cons, List.map_cons, hText, hTexts],
        .cons hLexeme hLexemes⟩
  rw [← hText]
  cases lexemes with
  | nil =>
    cases hLexemes
    exact ⟨[], tokensFrom_nil 0, rfl⟩
  | cons first others =>
    rw [← spelled_spaced]
    refine exists_tokensFrom_spelled ⟨?_, List.forall_mem_nil _⟩ ?_ ?_ 0
    · simp [show Text.isBlank ' ' = true by decide]
    · simp
    · simpa [Function.comp_def] using hLexemes

/-! ### The tokens of an expression -/

namespace Derives

/-- An expression of a level is one of every looser level. -/
theorem of_le {level place : Nat} {tokens : List Token} {e : Expr} (h : Derives level tokens e)
    (hLevel : level ≤ primaryLevel) (hPlace : place ≤ level) : Derives place tokens e := by
  induction hPlace using Nat.decreasingInduction with
  | self => exact h
  | of_succ k hk ih => exact .looser (Nat.lt_of_lt_of_le hk hLevel) ih

/-- With parentheses where its level is looser than its place, an expression fits everywhere. -/
theorem parenthesized (level : Nat) {place : Nat} {tokens : List Token} {e : Expr}
    (h : Derives level tokens e) (hLevel : level ≤ primaryLevel) (hPlace : place ≤ primaryLevel) :
    Derives place (Expr.parenthesized (level < place) tokens) e := by
  by_cases hLooser : level < place
  · rw [Expr.parenthesized, if_pos (decide_eq_true hLooser)]
    exact (Derives.parentheses (h.of_le hLevel (Nat.zero_le _))).of_le (Nat.le_refl _) hPlace
  · rw [Expr.parenthesized, if_neg (by simpa using hLooser)]
    exact h.of_le hLevel (Nat.le_of_not_lt hLooser)

end Derives

namespace Expr

/-- **The tokens of an expression spell it**, wherever it stands. -/
theorem derives_tokensAt (e : Expr) {place : Nat} (hPlace : place ≤ primaryLevel) :
    Derives place (e.tokensAt place) e := by
  induction e generalizing place with
  | literal l =>
    refine Derives.parenthesized primaryLevel ?_ (Nat.le_refl _) hPlace
    cases l with
    | null => exact .null
    | bool b => cases b with
      | true => exact .isTrue
      | false => exact .isFalse
    | number n => exact .number n
    | text s => exact .string s
  | «variable» name =>
    exact Derives.parenthesized primaryLevel (.name name) (Nat.le_refl _) hPlace
  | unary op operand ih =>
    exact Derives.parenthesized unaryLevel (.unary (ih (by decide))) (by decide) hPlace
  | binary op left right ihLeft ihRight =>
    have hLevel : op.level + 2 ≤ primaryLevel := by cases op <;> decide
    exact Derives.parenthesized (op.level + 1)
      (.binary rfl (ihLeft (Nat.le_of_succ_le hLevel)) (ihRight hLevel))
      (Nat.le_of_succ_le hLevel) hPlace
  | conditional test thenBranch elseBranch ihTest ihThen ihElse =>
    exact Derives.parenthesized 0
      (.conditional (ihTest (by decide)) (ihThen (by decide)) (ihElse (by decide))) (by decide)
      hPlace

theorem forall_mem_parenthesized {needed : Bool} {tokens : List Token}
    (h : ∀ t ∈ tokens, t.IsWritable) : ∀ t ∈ parenthesized needed tokens, t.IsWritable := by
  cases needed with
  | false => exact h
  | true =>
    intro t ht
    simp only [parenthesized, if_true, List.mem_cons, List.mem_append, List.not_mem_nil,
      or_false] at ht
    obtain rfl | hToken | rfl := ht
    · trivial
    · exact h t hToken
    · trivial

/-- An expression whose leaves can be written has tokens that can be. -/
theorem forall_mem_tokensAt {e : Expr} (h : e.HasWritableLeaves) (place : Nat) :
    ∀ t ∈ e.tokensAt place, t.IsWritable := by
  induction e generalizing place with
  | literal l =>
    refine forall_mem_parenthesized fun t ht => ?_
    obtain rfl := List.mem_singleton.mp ht
    cases l with
    | number n => exact h
    | null | bool b | text s => trivial
  | «variable» name =>
    refine forall_mem_parenthesized fun t ht => ?_
    obtain rfl := List.mem_singleton.mp ht
    exact h
  | unary op operand ih =>
    refine forall_mem_parenthesized fun t ht => ?_
    obtain rfl | ht := List.mem_cons.mp ht
    · trivial
    · exact ih h _ t ht
  | binary op left right ihLeft ihRight =>
    refine forall_mem_parenthesized fun t ht => ?_
    rw [List.mem_append, List.mem_cons] at ht
    obtain ht | rfl | ht := ht
    · exact ihLeft h.1 _ t ht
    · trivial
    · exact ihRight h.2 _ t ht
  | conditional test thenBranch elseBranch ihTest ihThen ihElse =>
    refine forall_mem_parenthesized fun t ht => ?_
    rw [List.mem_append, List.mem_cons, List.mem_append, List.mem_cons] at ht
    obtain ht | rfl | ht | rfl | ht := ht
    · exact ihTest h.1 _ t ht
    · trivial
    · exact ihThen h.2.1 _ t ht
    · trivial
    · exact ihElse h.2.2 _ t ht

end Expr

variable {e : Expr} {room : Nat}

/-- The text of an expression is compiled to what its tokens are parsed to. -/
theorem exists_compile_print (quotes : Text → Quote) (h : e.HasWritableLeaves) (room : Nat) :
    ∃ located, located.map Located.token = e.tokensAt 0 ∧
      compile (e.print quotes) room =
        (Parser.parse (e.print quotes).length (room - 3) located).map fun root =>
          ⟨e.print quotes, Text.sorted (namesIn located), root⟩ := by
  obtain ⟨located, hTokens, hMap⟩ :=
    exists_tokens_written quotes (Expr.forall_mem_tokensAt h 0)
  refine ⟨located, hMap, compile_of_tokens hTokens ?_ room⟩
  rintro rfl
  exact (e.derives_tokensAt (Nat.zero_le _)).ne_nil hMap.symm

/-- An expression of few tokens is not nested too deeply. -/
theorem compile_print_ne_tooDeep (quotes : Text → Quote) (h : e.HasWritableLeaves)
    (hShort : 10 * (e.tokensAt 0).length + 13 ≤ room) :
    compile (e.print quotes) room ≠ .error .tooDeep := by
  obtain ⟨located, hMap, hCompile⟩ := exists_compile_print quotes h room
  rw [← hMap, List.length_map] at hShort
  have hLimit : Parser.parse (e.print quotes).length (room - 3) located ≠ .error .tooDeep :=
    Parser.parse_ne_tooDeep (by omega)
  rw [hCompile]
  cases hParse : Parser.parse (e.print quotes).length (room - 3) located with
  | ok root => exact ok_ne_error _ _
  | error error =>
    intro hError
    cases hError
    exact hLimit hParse

/-- An expression of few tokens is compiled to itself. -/
theorem exists_compile_print_eq_ok (quotes : Text → Quote) (h : e.HasWritableLeaves)
    (hShort : 10 * (e.tokensAt 0).length + 13 ≤ room) :
    ∃ c, compile (e.print quotes) room = .ok c ∧ c.root = e := by
  obtain ⟨located, hMap, hCompile⟩ := exists_compile_print quotes h room
  have hDerives : Derives 0 (located.map Located.token) e := by
    rw [hMap]
    exact e.derives_tokensAt (Nat.zero_le _)
  rw [← hMap, List.length_map] at hShort
  have hParse : Parser.parse (e.print quotes).length (room - 3) located = .ok e :=
    (Parser.parse_of_derives hDerives).resolve_right (Parser.parse_ne_tooDeep (by omega))
  rw [hCompile, hParse]
  exact ⟨_, rfl, rfl⟩

/-- **An expression that is written as a condition is compiled to the same expression**, in
whichever quotes its texts stand, unless the nesting limit is hit. -/
theorem compile_print (quotes : Text → Quote) (e : Expr) (h : e.HasWritableLeaves) (room : Nat)
    (hLimit : compile (e.print quotes) room ≠ .error .tooDeep) :
    (compile (e.print quotes) room).map Compiled.root = .ok e := by
  obtain ⟨located, hMap, hCompile⟩ := exists_compile_print quotes h room
  have hDerives : Derives 0 (located.map Located.token) e := by
    rw [hMap]
    exact e.derives_tokensAt (Nat.zero_le _)
  have hParse : Parser.Upto (Parser.parse (e.print quotes).length (room - 3) located) (.ok e) :=
    Parser.parse_of_derives hDerives
  rcases hParse with hParse | hTooDeep
  · rw [hCompile, hParse]
    rfl
  · rw [hCompile, hTooDeep] at hLimit
    exact absurd rfl hLimit

/-- A choice between a difference whose right operand needs parentheses and nothing; its test
compares a variable that is named like a keyword with a text of both quotes and a backslash. -/
theorem compile_print_choice :
    let number (n : Int) : Expr := .literal (.number (.int n))
    let e : Expr := .conditional
      (.binary .eq (.variable "true".toList) (.literal (.text ['\'', '"', '\\'])))
      (.binary .sub (number 1) (.binary .sub (number 2) (.unary .minus (number 3))))
      (.literal .null)
    e.print (fun _ => .single) = "$true == '\\'\"\\\\' ? 1 - ( 2 - - 3 ) : null".toList ∧
      (compile (e.print fun _ => .single)).map Compiled.root = .ok e := by
  intro number e
  have hNumber : (Text.writeInt 1).isOk ∧ (Text.writeInt 2).isOk ∧ (Text.writeInt 3).isOk := by
    decide +kernel
  have hLeaves : e.HasWritableLeaves :=
    ⟨⟨⟨by decide, by decide⟩, trivial⟩, ⟨⟨by decide, hNumber.1⟩, ⟨by decide, hNumber.2.1⟩,
      ⟨by decide, hNumber.2.2⟩⟩, trivial⟩
  exact ⟨by decide, compile_print _ e hLeaves _ (compile_print_ne_tooDeep _ hLeaves (by decide))⟩

end Condition

end SqlTemplate
