import Mathlib.Data.List.TakeWhile
import Mathlib.Data.String.Basic
import TypeGraph.Proofs.Text.Classes
import TypeGraph.Signature.Token

/-!
This file relates the tokens of a text to its characters. Every token is spelled after blanks, a
word ends where no identifier character follows, and the rest of the text has the other tokens.
-/

namespace TypeGraph.Signature

open Text

/-- The characters of a text are all blank. -/
def Blank (characters : List Char) : Prop :=
  ∀ character ∈ characters, isBlank character = true

theorem blank_nil : Blank [] := by
  intro character listed
  cases listed

/-- A word has identifier characters only. -/
def IsWord (letters : List Char) : Prop :=
  letters ≠ [] ∧ ∀ letter ∈ letters, isIdentifierPart letter = true

/-- A token is spelled by its own characters. -/
def Token.spelling : Token → List Char
  | .word letters => letters
  | .ellipsis => ['.', '.', '.']
  | .symbol character => [character]

/-- No identifier character is blank. -/
theorem isBlank_eq_false_of_isIdentifierPart {character : Char}
    (part : isIdentifierPart character = true) : isBlank character = false := by
  cases blank : isBlank character with
  | false => rfl
  | true =>
      rw [isIdentifierPart_of_isBlank blank] at part
      cases part

/-! ### Starts of words -/

/-- A text that starts with a blank does not go on with a word. -/
theorem startsWord_blank_append {blanks : List Char} (blank : Blank blanks) (nonempty : blanks ≠ [])
    (rest : List Char) : startsWord (blanks ++ rest) = false := by
  cases blanks with
  | nil => exact absurd rfl nonempty
  | cons first others => exact isIdentifierPart_of_isBlank (blank first List.mem_cons_self)

/-- Whether a text starts with a word shows in its front already, if that is not empty. -/
theorem startsWord_of_append {front back : List Char} (ends : startsWord (front ++ back) = false) :
    startsWord front = false := by
  cases front with
  | nil => rfl
  | cons first others => exact ends

/-- A text does not start with a word if neither of its parts does. -/
theorem startsWord_append {front back : List Char} (first : startsWord front = false)
    (second : startsWord back = false) : startsWord (front ++ back) = false := by
  cases front with
  | nil => exact second
  | cons character others => exact first

theorem blank_space : Blank [' '] := by
  intro character listed
  rw [List.mem_singleton.mp listed]
  decide +kernel

/-! ### Lexemes by their first character -/

namespace Lexeme

variable {character : Char} {rest : List Char}

/-- A blank is passed by and moves the start of what follows. -/
theorem scan_blank (blank : isBlank character = true) (start : Nat) :
    scan start (character :: rest) = scan (start + character.utf8Size) rest := by
  have notEllipsis : ∀ later, character = '.' → rest = '.' :: '.' :: later → False := by
    intro later same
    subst same
    exact absurd blank (by decide +kernel)
  rw [scan.eq_3 _ _ _ notEllipsis, if_pos blank]

/-- Other visible characters are symbols, unless three dots stand together. -/
theorem scan_symbol (visible : isBlank character = false)
    (apart : isIdentifierPart character = false)
    (notEllipsis : ∀ later, character = '.' → rest = '.' :: '.' :: later → False) (start : Nat) :
    scan start (character :: rest) =
      ⟨.symbol character, start, start + character.utf8Size⟩ ::
        scan (start + character.utf8Size) rest := by
  rw [scan.eq_3 _ _ _ notEllipsis, if_neg (by simp [visible]), if_neg (by simp [apart])]

/-- A letter joins the word that starts after it, or it is a word by itself. -/
theorem scan_letter (part : isIdentifierPart character = true) (start : Nat) :
    scan start (character :: rest) =
      if startsWord rest then join character start (scan (start + character.utf8Size) rest)
      else ⟨.word [character], start, start + character.utf8Size⟩ ::
        scan (start + character.utf8Size) rest := by
  have visible := isBlank_eq_false_of_isIdentifierPart part
  have notEllipsis : ∀ later, character = '.' → rest = '.' :: '.' :: later → False := by
    intro later same
    subst same
    exact absurd part (by decide +kernel)
  rw [scan.eq_3 _ _ _ notEllipsis, if_neg (by simp [visible]), if_pos part]

/-- Blanks move the start of what follows by their bytes. -/
theorem scan_blanks {blanks : List Char} (blank : Blank blanks) (rest : List Char) (start : Nat) :
    scan start (blanks ++ rest) = scan (start + String.utf8Len blanks) rest := by
  induction blanks generalizing start with
  | nil => rfl
  | cons first others inductionHypothesis =>
      have later := fun other listed => blank other (List.mem_cons_of_mem first listed)
      rw [List.cons_append, scan_blank (blank first List.mem_cons_self), inductionHypothesis later,
        String.utf8Len_cons, Nat.add_assoc, Nat.add_comm first.utf8Size]

theorem scan_of_blank {blanks : List Char} (blank : Blank blanks) (start : Nat) :
    scan start blanks = [] := by
  rw [← List.append_nil blanks, scan_blanks blank]
  rfl

/-- A maximal run of identifier characters is one lexeme. -/
theorem scan_word {letters : List Char} (word : IsWord letters) (ends : startsWord rest = false)
    (start : Nat) :
    scan start (letters ++ rest) =
      ⟨.word letters, start, start + String.utf8Len letters⟩ ::
        scan (start + String.utf8Len letters) rest := by
  obtain ⟨nonempty, parts⟩ := word
  induction letters generalizing start with
  | nil => exact absurd rfl nonempty
  | cons first others inductionHypothesis =>
      rw [List.cons_append, scan_letter (parts first List.mem_cons_self)]
      cases others with
      | nil => simp [ends]
      | cons second later =>
          have continues : startsWord (second :: later ++ rest) = true :=
            parts second (by simp)
          have tail := inductionHypothesis (start + first.utf8Size) (by simp)
            fun letter listed => parts letter (List.mem_cons_of_mem _ listed)
          rw [if_pos continues, tail, join, String.utf8Len_cons first, Nat.add_assoc,
            Nat.add_comm first.utf8Size]

end Lexeme

/-! ### Lexemes by their first token -/

namespace Token

/-- No word goes on where a token ends, and no ellipsis starts where a symbol stands. -/
def Ends (token : Token) (rest : List Char) : Prop :=
  match token with
  | .word letters => IsWord letters ∧ startsWord rest = false
  | .ellipsis => True
  | .symbol character => isBlank character = false ∧ isIdentifierPart character = false ∧
      ∀ later, character = '.' → rest = '.' :: '.' :: later → False

/-- A token that ends is the first lexeme of its text, in the place of its spelling. -/
theorem Ends.scan {token : Token} {rest : List Char} (ends : token.Ends rest) {blanks : List Char}
    (blank : Blank blanks) (start : Nat) :
    Lexeme.scan start (blanks ++ (token.spelling ++ rest)) =
      ⟨token, start + String.utf8Len blanks,
          start + String.utf8Len blanks + String.utf8Len token.spelling⟩ ::
        Lexeme.scan (start + String.utf8Len blanks + String.utf8Len token.spelling) rest := by
  rw [Lexeme.scan_blanks blank]
  cases token with
  | word letters => exact Lexeme.scan_word ends.1 ends.2 _
  | ellipsis => rfl
  | symbol character => simpa [spelling] using Lexeme.scan_symbol ends.1 ends.2.1 ends.2.2 _

/-- Behind the longest word no identifier character stands. -/
theorem startsWord_dropWhile (characters : List Char) :
    startsWord (characters.dropWhile isIdentifierPart) = false := by
  induction characters with
  | nil => rfl
  | cons first others inductionHypothesis =>
      rw [List.dropWhile_cons]
      split
      next => exact inductionHypothesis
      next apart => simpa [startsWord] using apart

/-- A text that is not blank starts with the spelling of a token after blanks. -/
theorem exists_spelling (text : List Char) :
    Blank text ∨ ∃ (blanks : List Char) (token : Token) (rest : List Char),
      text = blanks ++ (token.spelling ++ rest) ∧ Blank blanks ∧ token.Ends rest := by
  induction text with
  | nil => exact .inl blank_nil
  | cons first others inductionHypothesis =>
      by_cases blank : isBlank first = true
      · rcases inductionHypothesis with rest | ⟨blanks, token, rest, same, before, ends⟩
        · exact .inl (List.forall_mem_cons.mpr ⟨blank, rest⟩)
        · exact .inr ⟨first :: blanks, token, rest, by rw [same, List.cons_append],
            List.forall_mem_cons.mpr ⟨blank, before⟩, ends⟩
      · right
        by_cases part : isIdentifierPart first = true
        · have run := List.takeWhile_append_dropWhile (p := isIdentifierPart) (l := first :: others)
          have nonempty : (first :: others).takeWhile isIdentifierPart ≠ [] := by
            simp [part]
          have parts : ∀ letter ∈ (first :: others).takeWhile isIdentifierPart,
              isIdentifierPart letter = true :=
            fun letter listed => List.mem_takeWhile_imp listed
          exact ⟨[], .word ((first :: others).takeWhile isIdentifierPart), _, run.symm, blank_nil,
            ⟨nonempty, parts⟩, startsWord_dropWhile _⟩
        · by_cases dots : ∃ later, first = '.' ∧ others = '.' :: '.' :: later
          · obtain ⟨later, rfl, rfl⟩ := dots
            exact ⟨[], .ellipsis, later, rfl, blank_nil, trivial⟩
          · refine ⟨[], .symbol first, others, rfl, blank_nil, by simpa using blank,
              by simpa using part, ?_⟩
            exact fun later dot same => dots ⟨later, dot, same⟩

/-- No token is empty. -/
theorem Ends.spelling_ne_nil {token : Token} {rest : List Char} (ends : token.Ends rest) :
    token.spelling ≠ [] := by
  cases token with
  | word letters => exact ends.1.1
  | ellipsis => exact List.cons_ne_nil _ _
  | symbol character => exact List.cons_ne_nil _ _

/-- A property of all texts follows when it passes from the rest of a text to the text. -/
theorem induct_text {motive : List Char → Prop} (blank : ∀ blanks, Blank blanks → motive blanks)
    (spelled : ∀ (blanks : List Char) (token : Token) (rest : List Char), Blank blanks →
      token.Ends rest → motive rest → motive (blanks ++ (token.spelling ++ rest)))
    (text : List Char) : motive text := by
  induction size : text.length using Nat.strong_induction_on generalizing text with
  | _ size inductionHypothesis =>
      rcases exists_spelling text with onlyBlank | ⟨blanks, token, rest, rfl, before, ends⟩
      · exact blank text onlyBlank
      · have letters := List.length_pos_iff.mpr ends.spelling_ne_nil
        simp only [List.length_append] at size
        exact spelled blanks token rest before ends (inductionHypothesis _ (by omega) rest rfl)

/-- The tokens of a text do not depend on its place. -/
theorem map_token_scan (start : Nat) (text : List Char) :
    (Lexeme.scan start text).map Lexeme.token = ofChars text := by
  have same : ∀ first second, (Lexeme.scan first text).map Lexeme.token =
      (Lexeme.scan second text).map Lexeme.token := by
    induction text using induct_text with
    | blank blanks blank =>
        intro first second
        have empty := fun start => Lexeme.scan_blanks blank [] start
        simp only [List.append_nil] at empty
        rw [empty, empty]
        rfl
    | spelled blanks token rest blank ends inductionHypothesis =>
        intro first second
        rw [ends.scan blank, ends.scan blank, List.map_cons, List.map_cons]
        exact congrArg (List.cons token) (inductionHypothesis _ _)
  exact same start 0

/-- A spelling that ends where it should becomes one token again, whatever blanks are in front. -/
theorem ofChars_spelling {token : Token} {rest : List Char} (ends : token.Ends rest)
    {blanks : List Char} (blank : Blank blanks) :
    ofChars (blanks ++ (token.spelling ++ rest)) = token :: ofChars rest := by
  rw [ofChars, ends.scan blank, List.map_cons, map_token_scan]

/-- Blanks in front of a text change none of its tokens. -/
theorem ofChars_blanks {blanks : List Char} (blank : Blank blanks) (rest : List Char) :
    ofChars (blanks ++ rest) = ofChars rest := by
  rw [ofChars, Lexeme.scan_blanks blank, map_token_scan]

/-- A text that has no tokens is blank. -/
theorem ofChars_eq_nil_iff {text : List Char} : ofChars text = [] ↔ Blank text := by
  constructor
  · intro empty
    rcases exists_spelling text with blank | ⟨blanks, token, rest, rfl, blank, ends⟩
    · exact blank
    · rw [ofChars_spelling ends blank] at empty
      cases empty
  · intro blank
    rw [← List.append_nil text, ofChars_blanks blank]
    rfl

/-- The first token of a text is spelled after blanks, and the rest has the other tokens. -/
theorem ofChars_eq_cons_iff {text : List Char} {token : Token} {tokens : List Token} :
    ofChars text = token :: tokens ↔
      ∃ blanks rest, text = blanks ++ (token.spelling ++ rest) ∧ Blank blanks ∧
        token.Ends rest ∧ ofChars rest = tokens := by
  constructor
  · intro same
    rcases exists_spelling text with blank | ⟨blanks, first, rest, rfl, blank, ends⟩
    · rw [ofChars_eq_nil_iff.mpr blank] at same
      cases same
    · rw [ofChars_spelling ends blank] at same
      obtain ⟨rfl, later⟩ := List.cons.inj same
      exact ⟨blanks, rest, rfl, blank, ends, later⟩
  · intro spelled
    obtain ⟨blanks, rest, rfl, blank, ends, rfl⟩ := spelled
    exact ofChars_spelling ends blank

end Token

/-- No word starts where the next token is not a word. -/
theorem startsWord_eq_false {text : List Char}
    (noWord : ∀ letters tokens, Token.ofChars text ≠ .word letters :: tokens) :
    startsWord text = false := by
  rcases Token.exists_spelling text with blank | ⟨blanks, token, rest, rfl, blank, ends⟩
  · cases text with
    | nil => rfl
    | cons first others => exact isIdentifierPart_of_isBlank (blank first List.mem_cons_self)
  · have tokens := Token.ofChars_spelling ends blank
    cases blanks with
    | cons first others => exact isIdentifierPart_of_isBlank (blank first List.mem_cons_self)
    | nil =>
        cases token with
        | word letters => exact absurd tokens (noWord letters _)
        | ellipsis => exact isIdentifierPart_of_mem_punctuation (by decide)
        | symbol character => exact ends.2.1

end TypeGraph.Signature
