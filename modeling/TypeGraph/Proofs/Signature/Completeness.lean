import TypeGraph.Proofs.Signature.Soundness

/-!
This file shows that the readers accept every text of the language. A reader whose input starts
with a text of the language reads it to its end if what follows cannot belong to it.
-/

namespace TypeGraph.Signature

open Text

/-- Nothing follows, or the next token is one of those allowed. -/
def Follows (allowed rest : List Token) : Prop :=
  ∀ token, rest.head? = some token → token ∈ allowed

/-- What may follow may also follow where more is allowed. -/
theorem Follows.mono {fewer more rest : List Token} (follows : Follows fewer rest)
    (subset : fewer ⊆ more) : Follows more rest :=
  fun token head => subset (follows token head)

/-- Of what follows only the first token matters. -/
theorem follows_cons_iff {allowed rest : List Token} {token : Token} :
    Follows allowed (token :: rest) ↔ token ∈ allowed := by
  simp [Follows]

theorem Follows.cons {allowed : List Token} {token : Token} (listed : token ∈ allowed)
    (rest : List Token) : Follows allowed (token :: rest) :=
  follows_cons_iff.mpr listed

/-- A token that is not allowed does not come next. -/
theorem Follows.notHead {allowed rest : List Token} (follows : Follows allowed rest)
    {token : Token} (forbidden : token ∉ allowed) : rest.head? ≠ some token :=
  fun head => forbidden (follows token head)

theorem Follows.notNext {allowed rest : List Token} (follows : Follows allowed rest)
    (character : Char) (forbidden : .symbol character ∉ allowed) : notNext character rest :=
  follows.notHead forbidden

/-- Behind a type stands a comma, a closing bracket or an ampersand. -/
def afterType : List Token :=
  [.symbol ',', .symbol '>', .symbol '&']

/-- Behind a dotted name there may also be dimensions. -/
def afterName : List Token :=
  .symbol '[' :: .ellipsis :: afterType

/-- Behind a segment there may also be a dot. -/
def afterSegment : List Token :=
  .symbol '.' :: afterName

/-- A complete reader reads every text of the language, as long as its input has no more tokens
than the limit and goes on with something that may follow. -/
def Complete {A : Type} (limit : Nat) (reader : Reader A) (language : List Char → A → Prop)
    (follows : A → List Token → Prop) : Prop :=
  ∀ front back value, language front value → follows value (Token.ofChars back) →
    (Token.ofChars (front ++ back)).length ≤ limit →
      reader (Token.ofChars (front ++ back)) = .ok (value, Token.ofChars back)

/-! ### Terminals -/

/-- A terminal becomes one token when its spelling ends there. -/
theorem ofChars_terminal {front back : List Char} {token : Token} (ends : token.Ends back)
    (spelled : Terminal token.spelling front) :
    Token.ofChars (front ++ back) = token :: Token.ofChars back := by
  obtain ⟨blanks, blank, rfl⟩ := spelled
  rw [List.append_assoc]
  exact Token.ofChars_spelling ends blank

/-- A mark of punctuation other than the dot ends anywhere. -/
theorem ofChars_mark {character : Char} (listed : character ∈ punctuation)
    (notDot : character ≠ '.') {front : List Char} (spelled : Terminal [character] front)
    (back : List Char) :
    Token.ofChars (front ++ back) = .symbol character :: Token.ofChars back := by
  have ends : (Token.symbol character).Ends back :=
    ⟨isBlank_of_mem_punctuation listed, isIdentifierPart_of_mem_punctuation listed,
      fun _ dot => absurd dot notDot⟩
  exact ofChars_terminal ends spelled

/-- Three dots become an ellipsis wherever they end. -/
theorem ofChars_dots {front : List Char} (spelled : Terminal ['.', '.', '.'] front)
    (back : List Char) : Token.ofChars (front ++ back) = .ellipsis :: Token.ofChars back := by
  have ends : Token.ellipsis.Ends back := trivial
  exact ofChars_terminal ends spelled

/-! ### Chains and dimensions -/

/-- A chain is read to its end when its items are and the separator ends before each of them. -/
theorem readChain_complete {A : Type} {limit : Nat} {item : Reader A} {separator : Char}
    {language : List Char → A → Prop} {continues : A → Prop} {follows : A → List Token → Prop}
    (shrinks : Shrinks item) (complete : Complete limit item language follows)
    (separates : ∀ mark text values back, Terminal [separator] mark →
      Chain language separator continues text values →
        Token.ofChars (mark ++ (text ++ back)) =
          .symbol separator :: Token.ofChars (text ++ back))
    (continued : ∀ value tokens, continues value → follows value (.symbol separator :: tokens)) :
    Complete limit (readChain item separator limit) (Chain language separator continues)
      fun _ rest => notNext separator rest ∧ ∀ value, follows value rest := by
  intro front back values chain after short
  obtain ⟨stop, last⟩ := after
  have within : ∀ budget ≤ limit, (Token.ofChars (front ++ back)).length ≤ budget →
      readChain item separator budget (Token.ofChars (front ++ back)) =
        .ok (values, Token.ofChars back) := by
    clear short
    induction chain with
    | @last text value holds =>
        intro budget covered short
        have read := complete text back value holds (last value) (by omega)
        have shorter := shrinks _ _ _ read
        obtain ⟨smaller, rfl⟩ := Nat.exists_eq_add_one_of_ne_zero (show budget ≠ 0 by omega)
        exact readChain_succ_eq_ok_iff.mpr ⟨value, _, read, .inl ⟨stop, rfl, rfl⟩⟩
    | @more first mark rest value values holds allowed separated later inductionHypothesis =>
        intro budget covered short
        simp only [List.append_assoc] at short ⊢
        have next := separates mark rest values back separated later
        have read := complete first (mark ++ (rest ++ back)) value holds
          (next ▸ continued value _ allowed) (by omega)
        have shorter := shrinks _ _ _ read
        rw [next] at read shorter
        rw [List.length_cons] at shorter
        obtain ⟨smaller, rfl⟩ := Nat.exists_eq_add_one_of_ne_zero (show budget ≠ 0 by omega)
        have tail := inductionHypothesis smaller (by omega) (by omega)
        exact readChain_succ_eq_ok_iff.mpr ⟨value, _, read, .inr ⟨_, values, rfl, tail, rfl⟩⟩
  exact within limit (Nat.le_refl limit) short

/-- Dimensions are read to their end when what may follow a type follows. -/
theorem readRank_complete {front back : List Char} {rank : Nat} (dimensions : Dimensions front rank)
    (follows : Follows afterType (Token.ofChars back)) :
    readRank (Token.ofChars (front ++ back)) = .ok (rank, Token.ofChars back) := by
  induction dimensions with
  | flat =>
      have noBracket := follows.notNext '[' (by decide)
      have noEllipsis : (Token.ofChars back).head? ≠ some .ellipsis :=
        follows.notHead (by decide)
      exact readRank_eq_ok_iff.mpr (.inl ⟨noBracket, noEllipsis, rfl, rfl⟩)
  | ellipsis spelled =>
      rw [ofChars_dots spelled]
      exact readRank_eq_ok_iff.mpr (.inr (.inl ⟨rfl, rfl⟩))
  | brackets opens closes later inductionHypothesis =>
      rw [List.append_assoc, List.append_assoc, ofChars_mark (by decide) (by decide) opens,
        ofChars_mark (by decide) (by decide) closes]
      exact readRank_eq_ok_iff.mpr (.inr (.inr ⟨_, _, rfl, inductionHypothesis, rfl⟩))

/-- Dimensions may stand behind a dotted name, and so may whatever may stand behind them. -/
theorem follows_dimensions {front back : List Char} {rank : Nat}
    (dimensions : Dimensions front rank) (follows : Follows afterType (Token.ofChars back)) :
    Follows afterName (Token.ofChars (front ++ back)) := by
  cases dimensions with
  | flat => exact follows.mono (by decide)
  | ellipsis spelled =>
      rw [ofChars_dots spelled]
      exact Follows.cons (by decide) _
  | brackets opens closes later =>
      rw [List.append_assoc, ofChars_mark (by decide) (by decide) opens]
      exact Follows.cons (by decide) _

/-! ### Types -/

/-- No word follows a segment. -/
theorem Follows.noWord {rest : List Token} (follows : Follows afterSegment rest)
    (letters : List Char) (tokens : List Token) : rest ≠ .word letters :: tokens := by
  intro same
  subst same
  rw [follows_cons_iff] at follows
  simp [afterSegment, afterName, afterType] at follows

/-- What follows a type does not go on with identifier characters. -/
theorem Follows.startsWord {back : List Char} (follows : Follows afterType (Token.ofChars back)) :
    startsWord back = false := by
  have more : Follows afterSegment (Token.ofChars back) := follows.mono (by decide)
  exact startsWord_eq_false more.noWord

/-- A segment starts with a letter, so the dot before it is no part of an ellipsis. -/
theorem ofChars_dot {language : List Char → Signature → Prop} {mark front back : List Char}
    {segments : List Segment} (separated : Terminal ['.'] mark)
    (chain : Chain (SegmentForm language) '.' (fun _ => True) front segments) :
    Token.ofChars (mark ++ (front ++ back)) = .symbol '.' :: Token.ofChars (front ++ back) := by
  have segment : ∀ text value rest later, SegmentForm language text value →
      text ++ rest ≠ '.' :: later := by
    intro text value rest later form
    cases form with
    | plain identifier spelled => exact identifier.ne_dot spelled rest later
    | generic identifier spelled applied =>
        rw [List.append_assoc]
        exact identifier.ne_dot spelled _ later
  have noDot : ∀ later, front ++ back ≠ '.' :: later := by
    intro later
    cases chain with
    | last holds => exact segment _ _ back later holds
    | more holds _ _ _ =>
        rw [List.append_assoc]
        exact segment _ _ _ later holds
  have ends : (Token.symbol '.').Ends (front ++ back) :=
    ⟨isBlank_of_mem_punctuation (by decide), isIdentifierPart_of_mem_punctuation (by decide),
      fun later _ => noDot ('.' :: later)⟩
  exact ofChars_terminal ends separated

/-- The keywords of bounds are words. -/
theorem isWord_of_keyword? {bound : BoundKind} {word : String}
    (introduces : bound.keyword? = some word) : IsWord word.toList := by
  have parts : word.toList ≠ [] ∧ word.toList.all isIdentifierPart = true := by
    cases bound with
    | unbounded => cases introduces
    | upper =>
        cases introduces
        decide +kernel
    | lower =>
        cases introduces
        decide +kernel
  exact ⟨parts.1, List.all_eq_true.mp parts.2⟩

/-- A wildcard ends wherever a type may end. -/
theorem closeWildcard_complete (bound : BoundKind) (constraints : List Signature)
    {tokens : List Token} (follows : Follows afterType tokens) :
    closeWildcard bound constraints tokens = .ok (wildcard bound constraints, tokens) := by
  have noEllipsis : tokens.head? ≠ some .ellipsis := follows.notHead (by decide)
  exact closeWildcard_eq_ok_iff.mpr ⟨follows.notNext '[' (by decide), noEllipsis, rfl, rfl⟩

section Nested

variable {limit : Nat} {nested : Place → Reader Signature}
  {language : List Char → Signature → Prop}

/-- A type with bounds must not be followed by an ampersand. -/
def followsType (signature : Signature) (rest : List Token) : Prop :=
  Follows afterType rest ∧ stopsType signature rest

/-- Types are read to their end, and no type starts with a closing bracket. -/
structure Nested.IsComplete (limit : Nat) (nested : Place → Reader Signature)
    (language : List Char → Signature → Prop) : Prop where
  shrinks : ∀ place, Shrinks (nested place)
  opens : ∀ place tokens result, nested place tokens = .ok result → notNext '>' tokens
  complete : ∀ place, Complete limit (nested place) language followsType

variable (types : Nested.IsComplete limit nested language)

include types

/-- Arguments of the language are read up to and including their closing bracket. -/
theorem readArguments_complete {inner closing back : List Char} {arguments : List Signature}
    (each : Chain language ',' (fun _ => True) inner arguments) (closes : Terminal ['>'] closing)
    (short : (Token.ofChars (inner ++ (closing ++ back))).length ≤ limit) :
    readArguments limit nested (Token.ofChars (inner ++ (closing ++ back))) =
      .ok (arguments, Token.ofChars back) := by
  have next := ofChars_mark (by decide) (by decide) closes back
  have stops : notNext ',' (Token.ofChars (closing ++ back)) ∧
      ∀ signature, followsType signature (Token.ofChars (closing ++ back)) := by
    rw [next]
    exact ⟨by simp [notNext],
      fun signature => ⟨Follows.cons (by decide) _, by simp [stopsType]⟩⟩
  have separates : ∀ mark text (values : List Signature) back, Terminal [','] mark →
      Chain language ',' (fun _ => True) text values →
        Token.ofChars (mark ++ (text ++ back)) = .symbol ',' :: Token.ofChars (text ++ back) :=
    fun mark text _ back separated _ => ofChars_mark (by decide) (by decide) separated _
  have continued : ∀ (signature : Signature) tokens, True →
      followsType signature (.symbol ',' :: tokens) := by
    intro signature tokens _
    exact ⟨Follows.cons (by decide) tokens, by simp [stopsType]⟩
  have read := readChain_complete (types.shrinks .beforeNext) (types.complete .beforeNext)
    separates continued inner (closing ++ back) arguments each stops short
  obtain ⟨signature, middle, first⟩ := exists_item_of_readChain read
  rw [next] at read
  exact readArguments_eq_ok_iff.mpr ⟨types.opens _ _ _ first, read⟩

/-- Segments of the language are read to their end. -/
theorem readSegment_complete :
    Complete limit (readSegment limit nested) (SegmentForm language) fun _ rest =>
      Follows afterSegment rest := by
  intro front back segment form follows short
  cases form with
  | @plain letters _ identifier spelled =>
      have ends : (Token.word letters).Ends back :=
        ⟨identifier.isWord, startsWord_eq_false follows.noWord⟩
      rw [ofChars_terminal ends spelled]
      obtain ⟨first, rest, rfl, starts, -⟩ := identifier
      exact readSegment_eq_ok_iff.mpr ⟨first, rest, _, rfl, starts,
        .inl ⟨follows.notNext '<' (by decide), rfl, rfl⟩⟩
  | @generic letters text _ arguments identifier spelled applied =>
      cases applied with
      | @enclosed opening inner closing _ opens each closes =>
          simp only [List.append_assoc] at short ⊢
          have next := ofChars_mark (by decide) (by decide) opens (inner ++ (closing ++ back))
          have ends : (Token.word letters).Ends (opening ++ (inner ++ (closing ++ back))) := by
            refine ⟨identifier.isWord, startsWord_eq_false ?_⟩
            intro letters tokens same
            rw [next] at same
            cases same
          rw [ofChars_terminal ends spelled, next, List.length_cons, List.length_cons] at short
          rw [ofChars_terminal ends spelled, next]
          have inside : (Token.ofChars (inner ++ (closing ++ back))).length ≤ limit := by omega
          have read := readArguments_complete types each closes inside
          obtain ⟨first, rest, rfl, starts, -⟩ := identifier
          exact readSegment_eq_ok_iff.mpr ⟨first, rest, _, rfl, starts,
            .inr ⟨_, arguments, rfl, read, rfl⟩⟩

/-- Named types of the language are read to their end. -/
theorem readNamed_complete {front back : List Char} {segments : List Segment} {rank : Nat}
    {rest : List Char} (name : Chain (SegmentForm language) '.' (fun _ => True) front segments)
    (dimensions : Dimensions back rank) (follows : Follows afterType (Token.ofChars rest))
    (short : (Token.ofChars (front ++ (back ++ rest))).length ≤ limit) :
    readNamed limit nested (Token.ofChars (front ++ (back ++ rest))) =
      .ok (⟨Segment.dotted segments, Segment.gather segments, rank, .unbounded, []⟩,
        Token.ofChars rest) := by
  have after := follows_dimensions dimensions follows
  have stops : notNext '.' (Token.ofChars (back ++ rest)) ∧
      ∀ _ : Segment, Follows afterSegment (Token.ofChars (back ++ rest)) :=
    ⟨after.notNext '.' (by decide), fun _ => after.mono (by decide)⟩
  have continued : ∀ (_ : Segment) tokens, True → Follows afterSegment (.symbol '.' :: tokens) := by
    intro _ tokens _
    exact Follows.cons (by decide) tokens
  have read := readChain_complete (readSegment_shrinks types.shrinks) (readSegment_complete types)
    (fun mark text values back separated chain => ofChars_dot separated chain) continued
    front (back ++ rest) segments name stops short
  refine readNamed_eq_ok_iff.mpr ⟨segments, _, rank, read, readRank_complete dimensions follows, ?_⟩
  rw [Segment.joinArguments_eq_gather]
  rfl

/-- A wildcard with bounds is read to its end when no further ampersand follows. -/
theorem readWildcard_complete {keyword rest back : List Char} {bound : BoundKind} {word : String}
    {constraints : List Signature} (introduces : bound.keyword? = some word)
    (written : Terminal word.toList keyword) (ends : startsWord rest = false)
    (each : Chain language '&' (fun constraint => constraint.bound = .unbounded) rest constraints)
    (follows : followsType ⟨"?", none, 0, bound, constraints⟩ (Token.ofChars back))
    (short : (Token.ofChars (keyword ++ (rest ++ back))).length ≤ limit) :
    readWildcard limit nested (Token.ofChars (keyword ++ (rest ++ back))) =
      .ok (⟨"?", none, 0, bound, constraints⟩, Token.ofChars back) := by
  have bounded : bound ≠ .unbounded := by
    intro same
    subst same
    cases introduces
  have noMark : (Token.ofChars back).head? ≠ some (.symbol '&') :=
    fun head => bounded (follows.2 head)
  have isWord : IsWord word.toList := isWord_of_keyword? introduces
  have wordEnds : (Token.word word.toList).Ends (rest ++ back) :=
    ⟨isWord, startsWord_append ends follows.1.startsWord⟩
  have continued : ∀ (constraint : Signature) tokens, constraint.bound = .unbounded →
      followsType constraint (.symbol '&' :: tokens) := by
    intro constraint tokens unbounded
    exact ⟨Follows.cons (by decide) tokens, fun _ => unbounded⟩
  rw [ofChars_terminal wordEnds written] at short ⊢
  rw [List.length_cons] at short
  have read := readChain_complete (types.shrinks .afterLast) (types.complete .afterLast)
    (fun mark text _ back separated _ => ofChars_mark (by decide) (by decide) separated _)
    continued rest back constraints each
    ⟨noMark, fun _ => ⟨follows.1, fun head => absurd head noMark⟩⟩ (by omega)
  have keywordFound : BoundKind.ofKeyword? (String.ofList word.toList) = some bound := by
    rw [String.ofList_toList]
    exact BoundKind.ofKeyword?_eq_some_iff.mpr introduces
  exact readWildcard_eq_ok_iff.mpr (.inl ⟨_, _, bound, constraints, _, rfl, keywordFound, read,
    closeWildcard_complete bound constraints follows.1⟩)

end Nested

/-- No type starts with a closing angle bracket. -/
theorem notNext_of_readType {limit levels : Nat} {place : Place} {tokens rest : List Token}
    {signature : Signature} (read : readType limit levels place tokens = .ok (signature, rest)) :
    notNext '>' tokens := by
  rcases start_of_readType read with ⟨later, rfl⟩ | ⟨letters, later, rfl⟩
  · simp [notNext]
  · simp [notNext]

/-- Every text that derives from the grammar is read with the same number of levels. -/
theorem readType_complete (limit levels : Nat) :
    Nested.IsComplete limit (readType limit levels) (Derives levels) := by
  induction levels with
  | zero =>
      exact ⟨readType_shrinks limit 0, fun _ _ _ read => notNext_of_readType read,
        fun _ _ _ _ impossible => absurd impossible id⟩
  | succ levels inductionHypothesis =>
      refine ⟨readType_shrinks limit (levels + 1), fun _ _ _ read => notNext_of_readType read, ?_⟩
      intro place front back signature form follows short
      cases form with
      | named name dimensions =>
          rw [List.append_assoc] at short ⊢
          have read := readNamed_complete inductionHypothesis name dimensions follows.1 short
          obtain ⟨letters, later, word⟩ := exists_word_of_readNamed read
          exact readType_eq_ok_iff.mpr (.inr ⟨by simp [word, notNext], read⟩)
      | unbounded spelled =>
          have more : Follows afterSegment (Token.ofChars back) := follows.1.mono (by decide)
          have read : readWildcard limit (readType limit levels) (Token.ofChars back) =
              .ok (⟨"?", none, 0, .unbounded, []⟩, Token.ofChars back) :=
            readWildcard_eq_ok_iff.mpr (.inr
              ⟨fun letters later same => absurd same (more.noWord letters later),
                closeWildcard_complete .unbounded [] follows.1⟩)
          rw [ofChars_mark (by decide) (by decide) spelled]
          exact readType_eq_ok_iff.mpr (.inl ⟨_, rfl, read⟩)
      | bounded spelled introduces written ends each =>
          simp only [List.append_assoc] at short ⊢
          rw [ofChars_mark (by decide) (by decide) spelled] at short ⊢
          rw [List.length_cons] at short
          have read := readWildcard_complete inductionHypothesis introduces written ends each
            follows (by omega)
          exact readType_eq_ok_iff.mpr (.inl ⟨_, rfl, read⟩)

end TypeGraph.Signature
