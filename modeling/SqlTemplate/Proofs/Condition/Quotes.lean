import SqlTemplate.Condition.Compiled
import SqlTemplate.Proofs.Condition.Lexemes
import SqlTemplate.Proofs.Template.Occurrences

/-!
# Quotes in a condition

A condition that can be compiled has all its quotes closed, and outside quotes it has neither a
brace nor a backslash. Reading it character by character, one is outside quotes at its end
(`walk_of_tokensFrom_isOk`).

The end of a condition can be read from outside quotes or from inside. A quote takes the two
readers to different places again, so they never meet: **of a condition that holds an opening tag,
the condition behind that tag cannot be compiled too** (`not_compiles_both`), and a condition that
ends inside another tag cannot be compiled at all.
-/

namespace SqlTemplate

namespace Condition

/-- Where the reader of a condition is. -/
inductive Place where
  /-- Outside quotes. -/
  | outside
  /-- In a quoted text. -/
  | inside (quote : Quote)
  /-- In a quoted text, behind a backslash. -/
  | escaped (quote : Quote)
  deriving DecidableEq

namespace Place

/-- Where the reader is after a character; outside quotes there is no brace and no backslash. -/
def step : Place → Char → Option Place
  | outside, c =>
    if c = '\'' then some (inside .single)
    else if c = '"' then some (inside .double)
    else if c = '\\' ∨ c = '{' then none
    else some outside
  | inside quote, c =>
    if c = '\\' then some (escaped quote)
    else if c = quote.char then some outside
    else some (inside quote)
  | escaped quote, _ => some (inside quote)

/-- Where the reader is after a text. -/
def walk (place : Place) (text : Text) : Option Place := text.foldlM step place

theorem walk_nil (place : Place) : place.walk [] = some place := rfl

theorem walk_cons (place : Place) (c : Char) (text : Text) :
    place.walk (c :: text) = (place.step c).bind (walk · text) := rfl

theorem walk_append (place : Place) (front rest : Text) :
    place.walk (front ++ rest) = (place.walk front).bind (walk · rest) :=
  List.foldlM_append

/-! ### Lexemes -/

/-- Characters that are neither quotes nor backslashes nor braces leave the reader outside. -/
theorem walk_outside_of_all {p : Char → Bool} (hSingle : p '\'' = false) (hDouble : p '"' = false)
    (hBackslash : p '\\' = false) (hBrace : p '{' = false) {text : Text} (h : text.all p) :
    outside.walk text = some outside := by
  induction text with
  | nil => rfl
  | cons c text ih =>
    rw [List.all_cons, Bool.and_eq_true] at h
    have hne {d : Char} (hd : p d = false) : c ≠ d := by
      rintro rfl
      exact Bool.false_ne_true (hd.symm.trans h.1)
    have hStep : outside.step c = some outside := by
      simp only [step, hne hSingle, hne hDouble, hne hBackslash, hne hBrace, or_self, if_false]
    rw [walk_cons, hStep, Option.bind_some, ih h.2]

theorem walk_digits {text : Text} (h : ∀ c ∈ text, Text.isDigit c = true) :
    outside.walk text = some outside :=
  walk_outside_of_all (by decide) (by decide) (by decide) (by decide) (List.all_eq_true.mpr h)

/-- The reader stays in a quoted body. -/
theorem walk_body {quote : Quote} {body : Text} (h : Lexeme.IsBody quote.char body) :
    (inside quote).walk body = some (inside quote) := by
  induction h with
  | nil => rfl
  | @plain c rest hQuote hBackslash _ ih =>
    have hStep : (inside quote).step c = some (inside quote) := by
      simp only [step, hBackslash, hQuote, if_false]
    rw [walk_cons, hStep, Option.bind_some, ih]
  | escaped c _ ih => exact ih

theorem walk_quoted {quote : Quote} {body : Text} (h : Lexeme.IsBody quote.char body) :
    outside.walk (quote.char :: body ++ [quote.char]) = some outside := by
  have hOpen : outside.step quote.char = some (inside quote) := by cases quote <;> rfl
  have hClose : (inside quote).step quote.char = some outside := by cases quote <;> rfl
  rw [List.cons_append, walk_cons, hOpen, Option.bind_some, walk_append, walk_body h,
    Option.bind_some, walk_cons, hClose, Option.bind_some, walk_nil]

theorem walk_identifier {name : Text} (h : Text.IsIdentifier name) :
    outside.walk name = some outside := by
  have hParts := Text.all_identifier name
  rw [h.2] at hParts
  exact walk_outside_of_all (by decide) (by decide) (by decide) (by decide) hParts

/-- A lexeme leaves the reader outside quotes. -/
theorem walk_of_isWellFormed {lexeme : Lexeme} (h : lexeme.IsWellFormed) :
    outside.walk lexeme.text = some outside := by
  cases h with
  | blanks _ hBlanks =>
    exact walk_outside_of_all (by decide) (by decide) (by decide) (by decide)
      (List.all_eq_true.mpr hBlanks)
  | digits _ hWhole => exact walk_digits hWhole
  | @pointed whole fraction _ hDigits =>
    have hPoint : outside.walk ('.' :: fraction) = outside.walk fraction := rfl
    rw [Lexeme.text, walk_append, walk_digits fun c hc => hDigits c (List.mem_append_left _ hc),
      Option.bind_some, hPoint, walk_digits fun c hc => hDigits c (List.mem_append_right _ hc)]
  | quoted quote hBody => exact walk_quoted hBody
  | word dollar hLetters =>
    have hWalk := walk_identifier hLetters
    cases dollar <;> exact hWalk
  | symbol s => cases s <;> rfl

/-- **A condition whose tokens can be read has all its quotes closed.** -/
theorem walk_of_tokensFrom_isOk {position : Nat} {text : Text}
    (h : (tokensFrom position text).isOk) : outside.walk text = some outside := by
  induction hn : text.length using Nat.strongRecOn generalizing text position with
  | _ n ih =>
    cases text with
    | nil => rfl
    | cons c rest =>
      obtain ⟨lexeme, hFirst, hRest⟩ := tokensFrom_cons_isOk h
      have hPos := Lexeme.length_text_pos hFirst
      obtain ⟨tail, hTail⟩ := Lexeme.prefix_of_first? hFirst
      rw [← hTail, List.drop_left] at hRest
      have hLength : tail.length < n := by
        rw [← hn, ← hTail, List.length_append]
        omega
      rw [← hTail, walk_append, walk_of_isWellFormed (Lexeme.exists_of_first? hFirst).1,
        Option.bind_some]
      exact ih _ hLength hRest rfl

/-! ### Two readers of one text -/

/-- Two places from which no text leads to the same place. -/
def Apart : Place → Place → Prop
  | outside, inside _ => True
  | inside _, outside => True
  | inside quote, inside other => quote ≠ other
  | escaped quote, escaped other => quote ≠ other
  | _, _ => False

/-- A character takes two readers who are apart to places that are apart. -/
theorem Apart.step {a b a' b' : Place} (h : a.Apart b) {c : Char} (ha : a.step c = some a')
    (hb : b.step c = some b') : a'.Apart b' := by
  cases a with
  | outside =>
    cases b with
    | outside => exact h.elim
    | escaped other => exact h.elim
    | inside other =>
      cases other <;> simp only [Place.step, Quote.char] at ha hb <;> grind [Apart]
  | inside quote =>
    cases b with
    | escaped other => exact h.elim
    | outside => cases quote <;> simp only [Place.step, Quote.char] at ha hb <;> grind [Apart]
    | inside other =>
      cases quote <;> cases other <;> simp only [Place.step, Quote.char] at ha hb <;> grind [Apart]
  | escaped quote =>
    cases b with
    | outside => exact h.elim
    | inside other => exact h.elim
    | escaped other =>
      cases ha
      cases hb
      exact h

/-- Two readers who are apart do not both end outside quotes. -/
theorem Apart.not_walk {a b : Place} (h : a.Apart b) {text : Text}
    (ha : a.walk text = some outside) (hb : b.walk text = some outside) : False := by
  induction text generalizing a b with
  | nil =>
    cases ha
    cases hb
    exact h
  | cons c text ih =>
    rw [walk_cons, Option.bind_eq_some_iff] at ha hb
    obtain ⟨a', hStepA, ha⟩ := ha
    obtain ⟨b', hStepB, hb⟩ := hb
    exact ih (h.step hStepA hStepB) ha hb

/-- A brace stands inside quotes. -/
theorem step_brace {place place' : Place} (h : place.step '{' = some place') :
    ∃ quote, place' = inside quote := by
  cases place with
  | outside => cases h
  | inside quote => exact ⟨quote, by cases quote <;> exact (Option.some.inj h).symm⟩
  | escaped quote => exact ⟨quote, (Option.some.inj h).symm⟩

/-- Behind a brace the reader of a condition is inside quotes, which are closed behind it. -/
theorem walk_of_brace {position : Nat} {front rest : Text}
    (h : (tokensFrom position (front ++ '{' :: rest)).isOk) :
    ∃ quote, (inside quote).walk rest = some outside := by
  have hWalk := walk_of_tokensFrom_isOk h
  rw [walk_append, Option.bind_eq_some_iff] at hWalk
  obtain ⟨place, -, hWalk⟩ := hWalk
  rw [walk_cons, Option.bind_eq_some_iff] at hWalk
  obtain ⟨place', hStep, hWalk⟩ := hWalk
  obtain ⟨quote, rfl⟩ := step_brace hStep
  exact ⟨quote, hWalk⟩

end Place

theorem tokensFrom_isOk_of_compile {source : Text} {room : Nat} (h : (compile source room).isOk) :
    (tokensFrom 0 source).isOk := by
  cases hTokens : tokensFrom 0 source with
  | ok tokens => rfl
  | error e =>
    simp only [compile, tokens, hTokens, bind, Except.bind] at h
    cases h

open Place in
/-- **Of a condition that holds an opening tag, the condition behind that tag cannot be compiled
too**: one of the two has a quote that is not closed. -/
theorem not_compiles_both {front rest : Text} {room : Nat}
    (h : (compile (front ++ '{' :: (Tag.opening.body ++ rest)) room).isOk)
    (hRest : (compile rest room).isOk) : False := by
  obtain ⟨quote, hInside⟩ := walk_of_brace (tokensFrom_isOk_of_compile h)
  have hOutside := walk_of_tokensFrom_isOk (tokensFrom_isOk_of_compile hRest)
  have hBody : (inside quote).walk Tag.opening.body = some (inside quote) := by
    cases quote <;> rfl
  rw [walk_append, hBody, Option.bind_some] at hInside
  exact Apart.not_walk (a := outside) (b := inside quote) trivial hOutside hInside

/-- A condition that ends inside another tag leaves its quotes open. -/
theorem not_compiles_of_unfinished {front unfinished : Text} {room : Nat} {tag : Tag}
    (hTag : unfinished ++ Tag.close = tag.body) :
    ¬(compile (front ++ '{' :: unfinished) room).isOk := by
  intro h
  obtain ⟨quote, hInside⟩ := Place.walk_of_brace (tokensFrom_isOk_of_compile h)
  have hBody : (Place.inside quote).walk unfinished = some (Place.inside quote) := by
    have hUnfinished : unfinished = tag.body.dropLast.dropLast := by
      rw [← hTag]
      simp [Tag.close, List.dropLast_append_of_ne_nil]
    cases tag <;> cases quote <;> rw [hUnfinished] <;> rfl
  cases hBody.symm.trans hInside

end Condition

end SqlTemplate
