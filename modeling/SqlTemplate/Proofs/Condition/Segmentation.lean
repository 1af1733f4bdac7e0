import Mathlib.Data.List.Forall2
import SqlTemplate.Proofs.Condition.Lexemes
import SqlTemplate.Proofs.Results

/-!
# A condition as a row of lexemes

The tokens of a condition are lexemes that make up the text together with the blanks around them
(`exists_pieces`). A lexeme that is a token does not go on with a blank
(`Lexeme.endsBefore_of_isBlank`), so wherever it stands with blanks behind it, it is read as the
same token (`exists_tokensFrom_spelled`), and what was read in front of a text is also read in front
of less of it (`exists_tokensFrom_take`). Hence **the tokens lose nothing of a condition but its
blanks, the blanks between two lexemes may be any others, and all that stands before a character
that cannot be read is read** (`tokens_segment`).
-/

namespace SqlTemplate

namespace Condition

namespace Lexeme

variable {lexeme : Lexeme} {t : Token} {position : Nat}

/-- A lexeme is written with at least one character. -/
theorem IsWellFormed.text_ne_nil (h : lexeme.IsWellFormed) : lexeme.text ≠ [] :=
  text_ne_nil_of_first? (first?_append h (endsBefore_nil lexeme))

/-- Whether a lexeme is a token, wherever it stands. -/
def IsOf (lexeme : Lexeme) (t : Token) : Prop :=
  ∀ position, lexeme.token? position = .ok (some t)

theorem isOf_of_token? (h : lexeme.token? position = .ok (some t)) : lexeme.IsOf t := by
  intro other
  cases lexeme with
  | blanks => cases h
  | quoted | word | symbol => exact h
  | number text =>
    simp only [token?] at h ⊢
    split at h
    · exact h
    · cases hRead : Text.readNat (Numeral.readDigits text).1 with
      | ok n =>
        rw [hRead] at h
        exact h
      | error fault =>
        rw [hRead] at h
        cases h

/-- Only a row of blanks is no token. -/
theorem eq_blanks_of_token? (h : lexeme.token? position = .ok none) :
    ∃ text, lexeme = blanks text := by
  unfold token? at h
  split at h
  · exact ⟨_, rfl⟩
  · split at h
    split at h
    · cases h
    · split at h <;> cases h
  · cases h
  · split at h <;> cases h
  · cases h

/-- A lexeme fails to be a token only as a number. -/
theorem eq_invalidNumber_of_token? {e : SyntaxError} (h : lexeme.token? position = .error e) :
    ∃ fault, e = .invalidNumber position fault := by
  unfold token? at h
  split at h
  · cases h
  · split at h
    split at h
    · cases h
    · split at h
      · cases h
      · cases h
        exact ⟨_, rfl⟩
  · cases h
  · split at h <;> cases h
  · cases h

/-! ### Tokens and blanks -/

/-- A token does not begin with a blank. -/
theorem isBlank_of_mem_head? {text : Text} (h : first? text = some lexeme) (hOf : lexeme.IsOf t) :
    ∀ c ∈ text.head?, Text.isBlank c = false := by
  obtain ⟨run, rest, rfl, hRun, hRest⟩ := Text.exists_run Text.isBlank text
  cases run with
  | nil => exact hRest
  | cons c run =>
    have hBlanks : first? (c :: run ++ rest) = some (blanks (c :: run)) :=
      first?_append (.blanks (List.cons_ne_nil c run) hRun) hRest
    cases h.symm.trans hBlanks
    cases hOf 0

/-- A token does not go on with a blank. -/
theorem goesOn_of_isBlank (hOf : lexeme.IsOf t) {c : Char} (hc : Text.isBlank c = true) :
    lexeme.goesOn c = false := by
  have hne {d : Char} (hd : Text.isBlank d = false) : c ≠ d := by
    rintro rfl
    exact Bool.false_ne_true (hd.symm.trans hc)
  cases lexeme with
  | blanks => cases hOf 0
  | number text =>
    have hDigit : Text.isDigit c = false :=
      Bool.eq_false_iff.mpr fun hDigit => hne (Text.isBlank_of_isDigit hDigit) rfl
    simp [goesOn, hDigit, hne (d := '.') (by decide)]
  | quoted => rfl
  | word =>
    exact Bool.eq_false_iff.mpr fun hPart => hne (Text.isBlank_of_isIdentifierPart hPart) rfl
  | symbol s =>
    have hSymbol (s : Symbol) : s.text.toList.any Text.isBlank = false := by
      cases s <;> decide
    rw [goesOn, List.any_eq_false]
    intro longer _ hText
    have hMem : c ∈ longer.text.toList := by
      rw [eq_of_beq hText]
      exact List.mem_append_right _ List.mem_cons_self
    exact List.any_eq_false.mp (hSymbol longer) c hMem hc

theorem endsBefore_of_isBlank (hOf : lexeme.IsOf t) {rest : Text}
    (hRest : ∀ c ∈ rest.head?, Text.isBlank c = true) : lexeme.EndsBefore rest :=
  fun c hc => goesOn_of_isBlank hOf (hRest c hc)

end Lexeme

/-! ### Lexemes with gaps between them -/

/-- The text of lexemes, each behind a gap, with a last gap at its end. -/
def spelled : List (Text × Lexeme) → Text → Text
  | [], last => last
  | (gap, lexeme) :: rest, last => gap ++ (lexeme.text ++ spelled rest last)

/-- Where the lexemes begin in such a text that begins at an offset. -/
def startsFrom (offset : Nat) : List (Text × Lexeme) → List Nat
  | [] => []
  | (gap, lexeme) :: rest =>
    (offset + gap.length) :: startsFrom (offset + gap.length + lexeme.text.length) rest

/-- Whether the gaps consist of blanks. -/
def HasBlankGaps (pieces : List (Text × Lexeme)) (last : Text) : Prop :=
  (∀ piece ∈ pieces, ∀ c ∈ piece.1, Text.isBlank c = true) ∧ ∀ c ∈ last, Text.isBlank c = true

variable {pieces : List (Text × Lexeme)} {last : Text}

theorem le_of_mem_startsFrom (offset : Nat) :
    ∀ n ∈ startsFrom offset pieces ++ [offset + (spelled pieces last).length], offset ≤ n := by
  induction pieces generalizing offset with
  | nil => simp [startsFrom]
  | cons piece rest ih =>
    obtain ⟨gap, lexeme⟩ := piece
    have hRest := ih (offset + gap.length + lexeme.text.length)
    simp only [startsFrom, spelled, List.cons_append, List.mem_cons, List.length_append] at hRest ⊢
    rintro n (rfl | hn)
    · exact Nat.le_add_right _ _
    · have := hRest n (by simpa only [Nat.add_assoc] using hn)
      omega

/-- The lexemes begin one behind another, and the last one before the end of the text. -/
theorem pairwise_startsFrom (h : ∀ piece ∈ pieces, piece.2.text ≠ []) (offset : Nat) :
    (startsFrom offset pieces ++ [offset + (spelled pieces last).length]).Pairwise (· < ·) := by
  induction pieces generalizing offset with
  | nil => exact List.pairwise_singleton _ _
  | cons piece rest ih =>
    obtain ⟨gap, lexeme⟩ := piece
    obtain ⟨hFirst, hRest⟩ := List.forall_mem_cons.mp h
    have hPos : 0 < lexeme.text.length := List.length_pos_iff.mpr hFirst
    have hEnd : offset + (spelled ((gap, lexeme) :: rest) last).length =
        offset + gap.length + lexeme.text.length + (spelled rest last).length := by
      simp only [spelled, List.length_append, Nat.add_assoc]
    rw [hEnd, startsFrom, List.cons_append, List.pairwise_cons]
    refine ⟨fun n hn => ?_, ih hRest _⟩
    have hLe := le_of_mem_startsFrom _ n hn
    omega

/-! ### Reading lexemes with gaps between them -/

/-- Blanks in front of a text only move its tokens. -/
theorem tokensFrom_gap {gap text : Text} (hGap : ∀ c ∈ gap, Text.isBlank c = true)
    (hText : ∀ c ∈ text.head?, Text.isBlank c = false) (position : Nat) :
    tokensFrom position (gap ++ text) = tokensFrom (position + gap.length) text := by
  cases gap with
  | nil => rfl
  | cons c gap =>
    have hFirst : Lexeme.first? (c :: (gap ++ text)) = some (.blanks (c :: gap)) :=
      Lexeme.first?_append (.blanks (List.cons_ne_nil c gap) hGap) hText
    have hDrop : (c :: (gap ++ text)).drop (Lexeme.blanks (c :: gap)).text.length = text :=
      @List.drop_left _ (c :: gap) text
    rw [List.cons_append, tokensFrom_of_first? hFirst, hDrop]
    change (tokensFrom (position + (c :: gap).length) text >>= fun others => .ok others) = _
    cases tokensFrom (position + (c :: gap).length) text <;> rfl

theorem isBlank_of_mem_head?_spelled (hBlank : HasBlankGaps pieces last)
    (hSeparated : ∀ piece ∈ pieces, piece.1 ≠ []) :
    ∀ c ∈ (spelled pieces last).head?, Text.isBlank c = true := by
  cases pieces with
  | nil => exact fun c hc => hBlank.2 c (List.mem_of_mem_head? hc)
  | cons piece rest =>
    obtain ⟨gap, lexeme⟩ := piece
    cases gap with
    | nil => exact absurd rfl (hSeparated _ List.mem_cons_self)
    | cons d gap =>
      intro c hc
      cases hc
      exact hBlank.1 _ List.mem_cons_self d List.mem_cons_self

/-- **Lexemes with blanks between them are read as the tokens that they are.** -/
theorem exists_tokensFrom_spelled {ts : List Token} (hBlank : HasBlankGaps pieces last)
    (hSeparated : ∀ piece ∈ pieces.tail, piece.1 ≠ [])
    (hTokens : List.Forall₂ (fun lexeme t => lexeme.IsWellFormed ∧ lexeme.IsOf t)
      (pieces.map Prod.snd) ts) (position : Nat) :
    ∃ located, tokensFrom position (spelled pieces last) = .ok located ∧
      located.map Located.token = ts := by
  rw [List.forall₂_map_left_iff] at hTokens
  induction hTokens generalizing position with
  | nil =>
    have hLast := @tokensFrom_gap last [] hBlank.2 (fun _ => nofun) position
    rw [List.append_nil, tokensFrom_nil] at hLast
    exact ⟨[], hLast, rfl⟩
  | @cons piece t rest ts hPiece hRest ih =>
    obtain ⟨gap, lexeme⟩ := piece
    obtain ⟨hWell, hOf⟩ := hPiece
    obtain ⟨hGap, hGaps⟩ := List.forall_mem_cons.mp hBlank.1
    obtain ⟨others, hOthers, hMap⟩ := ih ⟨hGaps, hBlank.2⟩
      (fun piece hp => hSeparated piece (List.mem_of_mem_tail hp))
      (position + gap.length + lexeme.text.length)
    have hHead := isBlank_of_mem_head?_spelled ⟨hGaps, hBlank.2⟩ hSeparated
    have hFirst := Lexeme.first?_append hWell (Lexeme.endsBefore_of_isBlank hOf hHead)
    refine ⟨⟨t, position + gap.length⟩ :: others, ?_, by rw [List.map_cons, hMap]⟩
    rw [spelled, tokensFrom_gap hGap (Lexeme.isBlank_of_mem_head? hFirst hOf)]
    exact tokensFrom_append hFirst (hOf _) hOthers

/-! ### What was read -/

/-- Whether a lexeme is what stands at the place of a token, and is this token. -/
def IsReadAt (source : Text) (lexeme : Lexeme) (t : Located) : Prop :=
  Lexeme.first? (source.drop t.position) = some lexeme ∧
    lexeme.token? t.position = .ok (some t.token)

/-- Blanks in front belong to the gap of the first lexeme, or else to the last gap. -/
theorem exists_spelled_blanks {blanks : Text} (hBlanks : ∀ c ∈ blanks, Text.isBlank c = true)
    (hGaps : HasBlankGaps pieces last) (offset : Nat) :
    ∃ pieces' last', blanks ++ spelled pieces last = spelled pieces' last' ∧
      HasBlankGaps pieces' last' ∧
      startsFrom (offset + blanks.length) pieces = startsFrom offset pieces' ∧
      pieces'.map Prod.snd = pieces.map Prod.snd := by
  obtain ⟨hPieces, hLast⟩ := hGaps
  cases pieces with
  | nil =>
    exact ⟨[], blanks ++ last, rfl,
      ⟨List.forall_mem_nil _, List.forall_mem_append.mpr ⟨hBlanks, hLast⟩⟩, rfl, rfl⟩
  | cons piece rest =>
    obtain ⟨gap, lexeme⟩ := piece
    obtain ⟨hGap, hRest⟩ := List.forall_mem_cons.mp hPieces
    have hFront := List.forall_mem_append.mpr ⟨hBlanks, hGap⟩
    refine ⟨(blanks ++ gap, lexeme) :: rest, last, ?_,
      ⟨List.forall_mem_cons.mpr ⟨hFront, hRest⟩, hLast⟩, ?_, rfl⟩
    · simp only [spelled, List.append_assoc]
    · simp only [startsFrom, List.length_append, Nat.add_assoc]

/-- **A text whose tokens can be read is made of their lexemes and blanks between them.** -/
theorem exists_pieces {front text : Text} {located : List Located}
    (h : tokensFrom front.length text = .ok located) :
    ∃ pieces last, text = spelled pieces last ∧ HasBlankGaps pieces last ∧
      located.map Located.position = startsFrom front.length pieces ∧
      List.Forall₂ (fun piece t => IsReadAt (front ++ text) piece.2 t) pieces located := by
  induction hn : text.length using Nat.strongRecOn generalizing front text located with
  | _ n ih =>
    cases text with
    | nil =>
      rw [tokensFrom_nil] at h
      cases h
      exact ⟨[], [], rfl, ⟨List.forall_mem_nil _, List.forall_mem_nil _⟩, rfl, .nil⟩
    | cons c rest =>
      obtain ⟨lexeme, hFirst, -⟩ := tokensFrom_cons_isOk (exists_eq_ok_iff_isOk.mp ⟨located, h⟩)
      rw [tokensFrom_of_first? hFirst] at h
      obtain ⟨token?, hToken, hAfter⟩ := exists_of_bind_eq_ok h
      obtain ⟨others, hOthers, hLocated⟩ := exists_of_bind_eq_ok hAfter
      obtain ⟨-, tail, hText, -⟩ := Lexeme.exists_of_first? hFirst
      have hPos := Lexeme.length_text_pos hFirst
      have hLength : tail.length < n := by
        rw [← hn, hText, List.length_append]
        omega
      rw [hText] at hFirst hOthers ⊢
      rw [List.drop_left, ← List.length_append] at hOthers
      obtain ⟨pieces, last, rfl, hBlank, hStarts, hRead⟩ := ih _ hLength hOthers rfl
      rw [List.append_assoc] at hRead
      cases token? with
      | none =>
        obtain ⟨blanks, rfl⟩ := Lexeme.eq_blanks_of_token? hToken
        have hBlanks : ∀ c ∈ blanks, Text.isBlank c = true := by
          cases (Lexeme.exists_of_first? hFirst).1 with
          | blanks _ hBlanks => exact hBlanks
        cases hLocated
        obtain ⟨pieces', last', hSpelled, hBlank', hStarts', hSame⟩ :=
          exists_spelled_blanks hBlanks hBlank front.length
        refine ⟨pieces', last', hSpelled, hBlank', ?_, ?_⟩
        · rw [hStarts, List.length_append]
          exact hStarts'
        · rw [← List.forall₂_map_left_iff] at hRead ⊢
          exact hSame ▸ hRead
      | some t =>
        cases hLocated
        refine ⟨([], lexeme) :: pieces, last, rfl, ⟨?_, hBlank.2⟩, ?_, .cons ⟨?_, hToken⟩ hRead⟩
        · exact List.forall_mem_cons.mpr ⟨List.forall_mem_nil _, hBlank.1⟩
        · rw [List.map_cons, hStarts, List.length_append]
          rfl
        · rw [List.drop_left]
          exact hFirst

/-- At the place of each token stands a lexeme that is this token. -/
theorem exists_isReadAt {source : Text} {located : List Located} (h : tokens source = .ok located) :
    ∀ t ∈ located, ∃ lexeme, IsReadAt source lexeme t := by
  have hTokens : tokensFrom ([] : Text).length source = .ok located := h
  obtain ⟨pieces, last, -, -, -, hRead⟩ := exists_pieces hTokens
  have hEach : List.Forall₂ (fun t _ => (∃ lexeme, IsReadAt source lexeme t) ∧ True)
      located pieces :=
    (hRead.imp fun piece t h => ⟨⟨piece.2, h⟩, trivial⟩).flip
  exact ((List.forall₂_and_left _ _).mp hEach).1

/-- **What stands before a character that cannot be read can be read by itself.** -/
theorem exists_tokensFrom_take {text : Text} {c : Char} {position stop : Nat}
    (h : tokensFrom position text = .error (.unexpectedCharacter c stop)) :
    ∃ n, stop = position + n ∧ text[n]? = some c ∧
      ∃ located, tokensFrom position (text.take n) = .ok located := by
  induction hn : text.length using Nat.strongRecOn generalizing position text with
  | _ n ih =>
    cases text with
    | nil =>
      rw [tokensFrom_nil] at h
      cases h
    | cons d rest =>
      cases hFirst : Lexeme.first? (d :: rest) with
      | none =>
        rw [tokensFrom_of_first?_none hFirst] at h
        cases h
        exact ⟨0, rfl, rfl, [], tokensFrom_nil _⟩
      | some lexeme =>
        obtain ⟨hWell, tail, hText, hEnds⟩ := Lexeme.exists_of_first? hFirst
        have hPos := Lexeme.length_text_pos hFirst
        have hLength : tail.length < n := by
          rw [← hn, hText, List.length_append]
          omega
        rw [tokensFrom_of_first? hFirst, hText, List.drop_left, bind_eq_error_iff] at h
        rw [hText]
        rcases h with hToken | ⟨token?, hToken, hRest⟩
        · obtain ⟨fault, hFault⟩ := Lexeme.eq_invalidNumber_of_token? hToken
          cases hFault
        rcases bind_eq_error_iff.mp hRest with hOthers | ⟨_, -, hOthers⟩
        · obtain ⟨k, rfl, hChar, located, hLocated⟩ := ih _ hLength hOthers rfl
          -- The lexeme ends before the part of the rest that is left, too.
          have hTake : (lexeme.text ++ tail).take (lexeme.text.length + k) =
              lexeme.text ++ tail.take k := List.take_length_add_append k
          have hShort := Lexeme.first?_append hWell (hEnds.of_prefix (List.take_prefix k tail))
          refine ⟨lexeme.text.length + k, Nat.add_assoc .., ?_, ?_⟩
          · rw [List.getElem?_append_right (Nat.le_add_right _ _), Nat.add_sub_cancel_left, hChar]
          · exact ⟨_, hTake ▸ tokensFrom_append hShort hToken hLocated⟩
        · cases hOthers

/-- **The tokens of a condition are a segmentation of it.** They stand one behind another before the
end, and their lexemes with nothing but blanks between them make up the condition; in a text with
other blanks between the same lexemes the tokens are the same. If a character cannot be read, all
that stands before it can. -/
theorem tokens_segment (source : Text) :
    (∀ located, tokens source = .ok located →
      (located.map Located.position ++ [source.length]).Pairwise (· < ·) ∧
      ∃ pieces last, source = spelled pieces last ∧ HasBlankGaps pieces last ∧
        located.map Located.position = startsFrom 0 pieces ∧
        List.Forall₂ (fun piece t => IsReadAt source piece.2 t) pieces located ∧
        ∀ pieces' last', pieces'.map Prod.snd = pieces.map Prod.snd →
          HasBlankGaps pieces' last' → (∀ piece ∈ pieces'.tail, piece.1 ≠ []) →
          ∃ located', tokens (spelled pieces' last') = .ok located' ∧
            located'.map Located.token = located.map Located.token) ∧
    ∀ c stop, tokens source = .error (.unexpectedCharacter c stop) →
      source[stop]? = some c ∧ ∃ located, tokens (source.take stop) = .ok located := by
  refine ⟨fun located h => ?_, fun c stop h => ?_⟩
  · have hTokens : tokensFrom ([] : Text).length source = .ok located := h
    obtain ⟨pieces, last, hSource, hBlank, hStarts, hRead⟩ := exists_pieces hTokens
    have hLexemes : List.Forall₂ (fun lexeme t => lexeme.IsWellFormed ∧ lexeme.IsOf t)
        (pieces.map Prod.snd) (located.map Located.token) := by
      rw [List.forall₂_map_left_iff, List.forall₂_map_right_iff]
      exact hRead.imp fun _ _ hRead =>
        ⟨(Lexeme.exists_of_first? hRead.1).1, Lexeme.isOf_of_token? hRead.2⟩
    have hTexts : ∀ piece ∈ pieces, piece.2.text ≠ [] := fun piece hPiece =>
      (((List.forall₂_and_left _ _).mp hLexemes).1 piece.2 (List.mem_map_of_mem hPiece)).text_ne_nil
    have hIncreasing := @pairwise_startsFrom pieces last hTexts 0
    rw [← hSource, Nat.zero_add] at hIncreasing
    refine ⟨hStarts ▸ hIncreasing, pieces, last, hSource, hBlank, hStarts, hRead, ?_⟩
    intro pieces' last' hSame hBlank' hSeparated
    exact exists_tokensFrom_spelled hBlank' hSeparated (hSame ▸ hLexemes) 0
  · obtain ⟨n, hStop, hChar, located, hLocated⟩ := exists_tokensFrom_take h
    rw [Nat.zero_add] at hStop
    subst hStop
    exact ⟨hChar, located, hLocated⟩

/-- A comparison has the same tokens with other blanks between its lexemes; and what stands before
the point of the last text is read. -/
theorem tokens_segment_comparison :
    tokens ['x', '<', '=', '1'] =
        .ok [⟨.name ['x'], 0⟩, ⟨.symbol .lessEqual, 1⟩, ⟨.number (.int 1), 3⟩] ∧
      (∃ located, tokens [' ', 'x', '\t', '<', '=', '\n', ' ', '1'] = .ok located ∧
        located.map Located.token = [.name ['x'], .symbol .lessEqual, .number (.int 1)]) ∧
      tokens ['x', '.', 'y'] = .error (.unexpectedCharacter '.' 1) ∧
      ∃ located, tokens ['x'] = .ok located := by
  have hTokens : tokens ['x', '<', '=', '1'] =
      .ok [⟨.name ['x'], 0⟩, ⟨.symbol .lessEqual, 1⟩, ⟨.number (.int 1), 3⟩] :=
    @tokensFrom_append (.word false ['x']) _ _ _ _ (by decide) rfl
      (@tokensFrom_append (.symbol .lessEqual) _ _ _ _ (by decide) rfl
        (@tokensFrom_append (.number ['1']) [] _ _ _ (by decide) rfl (tokensFrom_nil _)))
  have hError : tokens ['x', '.', 'y'] = .error (.unexpectedCharacter '.' 1) := by
    have hFirst : Lexeme.first? ['x', '.', 'y'] = some (.word false ['x']) := by decide
    rw [tokens, tokensFrom_of_first? hFirst]
    change (tokensFrom 1 ['.', 'y'] >>= fun _ => _) = _
    rw [tokensFrom_of_first?_none (by decide)]
    rfl
  refine ⟨hTokens, ?_, hError, ((tokens_segment _).2 _ _ hError).2⟩
  obtain ⟨-, pieces, last, -, -, -, hRead, hSame⟩ := (tokens_segment _).1 _ hTokens
  -- The lexemes are those that stand at the places of the tokens.
  have hLexemes : pieces.map Prod.snd =
      [.word false ['x'], .symbol .lessEqual, .number ['1']] := by
    obtain _ | ⟨⟨hFirst, -⟩, _ | ⟨⟨hSecond, -⟩, _ | ⟨⟨hThird, -⟩, _ | _⟩⟩⟩ := hRead
    rw [List.map_cons, List.map_cons, List.map_cons, ← Option.some.inj hFirst,
      ← Option.some.inj hSecond, ← Option.some.inj hThird]
    rfl
  have hBlank : Text.isBlank ' ' = true ∧ Text.isBlank '\t' = true ∧ Text.isBlank '\n' = true := by
    decide
  exact hSame
    [([' '], .word false ['x']), (['\t'], .symbol .lessEqual), (['\n', ' '], .number ['1'])] []
    hLexemes.symm ⟨by simp [hBlank], List.forall_mem_nil _⟩ (by decide)

end Condition

end SqlTemplate
