import TypeGraph.Proofs.Signature.Token
import TypeGraph.Signature.Reader

/-!
This file says where the offset of a fault lies. Behind it stand exactly the tokens that were not
read, and two such places of one text differ by blanks only.
-/

namespace TypeGraph.Signature

open Text

theorem Token.Ends.isBlank_of_mem_spelling {token : Token} {rest : List Char}
    (ends : token.Ends rest) : ∀ character ∈ token.spelling, isBlank character = false := by
  cases token with
  | word letters =>
      exact fun letter listed => isBlank_eq_false_of_isIdentifierPart (ends.1.2 letter listed)
  | ellipsis =>
      have dot : isBlank '.' = false := isBlank_of_mem_punctuation (by decide)
      simp [spelling, dot]
  | symbol character => exact List.forall_mem_singleton.mpr ends.1

/-- The tokens of a text are spelled by all of its characters that are not blank. -/
theorem Token.flatMap_spelling_ofChars (text : List Char) :
    (ofChars text).flatMap spelling = text.filter fun character => !isBlank character := by
  have removed {blanks : List Char} (blank : Blank blanks) :
      blanks.filter (fun character => !isBlank character) = [] := by
    rw [List.filter_eq_nil_iff]
    intro character listed
    simp [blank character listed]
  induction text using induct_text with
  | blank blanks blank => rw [ofChars_eq_nil_iff.mpr blank, removed blank, List.flatMap_nil]
  | spelled blanks token rest blank ends inductionHypothesis =>
      have kept : token.spelling.filter (fun character => !isBlank character) = token.spelling := by
        rw [List.filter_eq_self]
        intro character listed
        simp [ends.isBlank_of_mem_spelling character listed]
      rw [ofChars_spelling ends blank, List.filter_append, List.filter_append, removed blank, kept,
        List.flatMap_cons, inductionHypothesis, List.nil_append]

/-- Characters that add no token to the text behind them are blank. -/
theorem Token.blank_of_ofChars_append {front back : List Char}
    (same : ofChars (front ++ back) = ofChars back) : Blank front := by
  have spelled := congrArg (List.flatMap spelling) same
  rw [flatMap_spelling_ofChars, flatMap_spelling_ofChars, List.filter_append,
    List.append_left_eq_self, List.filter_eq_nil_iff] at spelled
  intro character listed
  simpa using spelled character listed

theorem Token.Ends.of_append {token : Token} {front back : List Char}
    (ends : token.Ends (front ++ back)) : token.Ends front := by
  cases token with
  | word letters => exact ⟨ends.1, startsWord_of_append ends.2⟩
  | ellipsis => trivial
  | symbol character =>
      refine ⟨ends.1, ends.2.1, ?_⟩
      intro later dot same
      exact ends.2.2 (later ++ back) dot (by rw [same, List.cons_append, List.cons_append])

/-- Where the lexemes of a text are divided, its characters are divided behind the last lexeme of
the first part. Blanks that follow there may be added to the front. -/
theorem Lexeme.exists_split {before after : List Lexeme} {start : Nat} {text : List Char}
    (divided : scan start text = before ++ after) :
    ∃ front back, text = front ++ back ∧ after = scan (start + String.utf8Len front) back ∧
      (before.getLast?.map stop).getD start = start + String.utf8Len front ∧
      ∀ blanks more, back = blanks ++ more → Blank blanks →
        scan start (front ++ blanks) = before := by
  induction before generalizing start text with
  | nil =>
      refine ⟨[], text, rfl, divided.symm, rfl, ?_⟩
      intro blanks more _ blank
      rw [List.nil_append, ← List.append_nil blanks, scan_blanks blank]
      rfl
  | cons lexeme others inductionHypothesis =>
      rcases Token.exists_spelling text with blank | ⟨blanks, token, rest, rfl, blank, ends⟩
      · rw [← List.append_nil text, scan_blanks blank] at divided
        cases divided
      · rw [ends.scan blank] at divided
        obtain ⟨rfl, later⟩ := List.cons.inj divided
        obtain ⟨front, back, rfl, same, last, read⟩ := inductionHypothesis later
        refine ⟨blanks ++ (token.spelling ++ front), back, by simp, ?_, ?_, ?_⟩
        · rw [same]
          simp only [String.utf8Len_append, Nat.add_assoc]
        · rw [List.getLast?_cons, Option.map_some, Option.getD_some, ← Option.getD_map stop]
          simpa only [String.utf8Len_append, Nat.add_assoc] using last
        · intro added more same blank'
          subst same
          rw [← List.append_assoc] at ends
          rw [List.append_assoc, List.append_assoc, ends.of_append.scan blank,
            read added more rfl blank']

/-- The first lexeme of a text starts behind the blanks in front of it. -/
theorem Lexeme.exists_blanks (start : Nat) (text : List Char) :
    ∃ blanks rest, text = blanks ++ rest ∧ Blank blanks ∧
      ((scan start text).head?.map Lexeme.start).getD (start + String.utf8Len text) =
        start + String.utf8Len blanks := by
  rcases Token.exists_spelling text with blank | ⟨blanks, token, rest, rfl, blank, ends⟩
  · refine ⟨text, [], (List.append_nil text).symm, blank, ?_⟩
    rw [← List.append_nil text, scan_blanks blank]
    simp [scan]
  · exact ⟨blanks, _, rfl, blank, by rw [ends.scan blank]; rfl⟩

/-- In front of the offset of a fault stand the tokens that were read, and behind it the others. -/
theorem Stuck.exists_split {stuck : Stuck} {text : List Char}
    (left : stuck.rest <:+ Token.ofChars text) :
    ∃ front back, text = front ++ back ∧
      stuck.offset (Lexeme.scan 0 text) (String.utf8Len text) = String.utf8Len front ∧
      Token.ofChars text = Token.ofChars front ++ stuck.rest ∧ Token.ofChars back = stuck.rest := by
  obtain ⟨read, same⟩ := left
  have count : (Lexeme.scan 0 text).length - stuck.rest.length = read.length := by
    rw [← List.length_map (f := Lexeme.token), ← Token.ofChars, ← same, List.length_append,
      Nat.add_sub_cancel_right]
  have divided := (List.take_append_drop read.length (Lexeme.scan 0 text)).symm
  obtain ⟨front, back, rfl, after, last, before⟩ := Lexeme.exists_split divided
  have unread : Token.ofChars back = stuck.rest := by
    rw [← Token.map_token_scan (0 + String.utf8Len front), ← after, List.map_drop,
      ← Token.ofChars, ← same, List.drop_left]
  have tokens (blanks more : List Char) (behind : back = blanks ++ more) (blank : Blank blanks) :
      Token.ofChars (front ++ back) = Token.ofChars (front ++ blanks) ++ stuck.rest := by
    rw [← same, ← Token.map_token_scan 0 (front ++ blanks), before blanks more behind blank,
      List.map_take, ← Token.ofChars, ← same, List.take_left]
  unfold offset
  dsimp only
  rw [count]
  cases stuck.place with
  | afterLast =>
      have fronts := tokens [] back rfl blank_nil
      rw [List.append_nil] at fronts
      exact ⟨front, back, rfl, last.trans (Nat.zero_add _), fronts, unread⟩
  | beforeNext =>
      obtain ⟨blanks, rest, rfl, blank, first⟩ :=
        Lexeme.exists_blanks (0 + String.utf8Len front) back
      refine ⟨front ++ blanks, rest, by simp, ?_, tokens blanks rest rfl blank, ?_⟩
      · rw [after]
        simpa [Nat.add_assoc] using first
      · rw [← unread, Token.ofChars_blanks blank]

end TypeGraph.Signature
