import TypeGraph.Proofs.Signature.Soundness
import TypeGraph.Proofs.Signature.Stuck

/-!
This file says what the readers leave of their tokens. They choose by the head of their tokens, and
they read forward: the tokens that they leave are the last ones of those that they were given.
-/

namespace TypeGraph.Signature

open Text

/-! ### Tokens that are not read -/

/-- A reader leaves the tokens behind its value or behind the place where it is stuck. -/
def unread {A : Type} : Except Stuck (A × List Token) → List Token
  | .ok (_, rest) => rest
  | .error stuck => stuck.rest

/-- A forward reader leaves the last ones of its tokens. -/
def Forward {A : Type} (reader : Reader A) : Prop :=
  ∀ tokens, unread (reader tokens) <:+ tokens

/-- A second step that reads forward leaves no more than the first one did. -/
theorem unread_bind_isSuffix {A B : Type} {first : Except Stuck (A × List Token)}
    {next : A × List Token → Except Stuck (B × List Token)}
    (later : ∀ value rest, unread (next (value, rest)) <:+ rest) :
    unread (first >>= next) <:+ unread first := by
  cases first with
  | error stuck => exact List.suffix_refl _
  | ok read => exact later read.1 read.2

/-- A chain leaves no more than its first item does. -/
theorem unread_readChain_isSuffix {A : Type} {item : Reader A} (forward : Forward item)
    (separator : Char) (budget : Nat) (tokens : List Token) :
    unread (readChain item separator budget tokens) <:+ unread (item tokens) := by
  induction budget generalizing tokens with
  | zero => exact unread_bind_isSuffix fun _ => List.suffix_refl
  | succ budget inductionHypothesis =>
      refine unread_bind_isSuffix ?_
      intro value rest
      dsimp only
      split
      next later =>
        split
        next =>
          refine (unread_bind_isSuffix fun _ => List.suffix_refl).trans ?_
          exact ((inductionHypothesis later).trans (forward later)).trans (List.suffix_cons _ later)
        next => exact List.suffix_refl _
      next => exact List.suffix_refl _

/-- A chain of forward items reads forward itself. -/
theorem readChain_forward {A : Type} {item : Reader A} (forward : Forward item) (separator : Char)
    (budget : Nat) : Forward (readChain item separator budget) :=
  fun tokens => (unread_readChain_isSuffix forward separator budget tokens).trans (forward tokens)

/-! ### Readers by the head of their tokens -/

/-- Behind an opening bracket the closing one is due at once. -/
theorem readRank_open (tokens : List Token) :
    readRank (.symbol '[' :: tokens) =
      if tokens.head? = some (.symbol ']') then
        readRank tokens.tail >>= fun (rank, final) => .ok (rank + 1, final)
      else .error (.here .expectedCloseBracket tokens) := by
  rw [readRank.eq_def]
  split
  next same =>
    obtain rfl := (List.cons.inj same).2
    rfl
  next unclosed same =>
    obtain rfl := (List.cons.inj same).2
    rw [if_neg (head?_ne_some unclosed)]
  next same => cases same
  next noBracket _ => exact (noBracket tokens rfl).elim

/-- Without an opening bracket only an ellipsis counts as a dimension. -/
theorem readRank_of_notNext {tokens : List Token} (unopened : notNext '[' tokens) :
    readRank tokens =
      if tokens.head? = some .ellipsis then .ok (1, tokens.tail) else .ok (0, tokens) := by
  rw [readRank.eq_def]
  split
  next => exact absurd rfl unopened
  next => exact absurd rfl unopened
  next => rfl
  next noEllipsis => rw [if_neg (head?_ne_some noEllipsis)]

/-- Whether a wildcard can end is decided by the next token alone. -/
theorem closeWildcard_eq (bound : BoundKind) (constraints : List Signature) (tokens : List Token) :
    closeWildcard bound constraints tokens =
      if tokens.head? = some (.symbol '[') ∨ tokens.head? = some .ellipsis then
        .error (.here .suffixOnWildcard tokens)
      else .ok (wildcard bound constraints, tokens) := by
  unfold closeWildcard
  split
  next => rfl
  next => rfl
  next noBracket noEllipsis =>
    rw [if_neg (not_or.mpr ⟨head?_ne_some noBracket, head?_ne_some noEllipsis⟩)]

section Nested

variable (limit : Nat) (nested : Place → Reader Signature) (tokens : List Token)

/-- Arguments start with anything but the closing bracket, which is due behind the last one. -/
theorem readArguments_eq :
    readArguments limit nested tokens =
      if tokens.head? = some (.symbol '>') then .error (.here .emptyArguments tokens)
      else readChain (nested .beforeNext) ',' limit tokens >>= fun (arguments, rest) =>
        if rest.head? = some (.symbol '>') then .ok (arguments, rest.tail)
        else .error (.here .expectedCommaOrClose rest) := by
  unfold readArguments
  split
  next => rfl
  next notClosed =>
    rw [if_neg (head?_ne_some notClosed)]
    refine bind_congr ?_
    intro read
    obtain ⟨arguments, rest⟩ := read
    dsimp only
    split
    next => rfl
    next unclosed => rw [if_neg (head?_ne_some unclosed)]

/-- An identifier is a segment of its own unless an angle bracket follows. -/
theorem readSegment_word {first : Char} (starts : isIdentifierStart first = true)
    (letters : List Char) :
    readSegment limit nested (.word (first :: letters) :: tokens) =
      if tokens.head? = some (.symbol '<') then
        readArguments limit nested tokens.tail >>= fun (arguments, final) =>
          .ok (⟨first :: letters, some arguments⟩, final)
      else .ok (⟨first :: letters, none⟩, tokens) := by
  rw [readSegment.eq_def]
  dsimp only
  rw [if_pos starts]
  split
  next => rfl
  next plain => rw [if_neg (head?_ne_some plain)]; rfl

/-- Only a word that starts as an identifier does opens a segment. -/
theorem readSegment_eq_error {tokens : List Token}
    (noIdentifier : ¬∃ first letters, isIdentifierStart first = true ∧
      tokens.head? = some (.word (first :: letters))) :
    readSegment limit nested tokens = .error (.here .expectedIdentifier tokens) := by
  unfold readSegment
  split
  next first letters rest =>
    rw [if_neg]
    exact fun starts => noIdentifier ⟨first, letters, starts, rfl⟩
  next => rfl

/-- A wildcard has bounds exactly when the word behind it is a keyword. -/
theorem readWildcard_eq :
    readWildcard limit nested tokens =
      match tokens.head? with
      | some (.word letters) =>
          match BoundKind.ofKeyword? (String.ofList letters) with
          | some bound => readChain (nested .afterLast) '&' limit tokens.tail >>=
              fun (constraints, final) => closeWildcard bound constraints final
          | none => closeWildcard .unbounded [] tokens
      | _ => closeWildcard .unbounded [] tokens := by
  unfold readWildcard
  split
  next => rfl
  next noWord =>
    split
    next letters head =>
      obtain ⟨later, same⟩ := List.head?_eq_some_iff.mp head
      exact (noWord letters later same).elim
    next => rfl

end Nested

/-- The first token decides between a wildcard and a named type. -/
theorem readType_succ_eq (limit levels : Nat) (place : Place) (tokens : List Token) :
    readType limit (levels + 1) place tokens =
      match tokens.head? with
      | none => .error (.here .expectedType tokens)
      | some token =>
          if token = .symbol '?' then readWildcard limit (readType limit levels) tokens.tail
          else readNamed limit (readType limit levels) tokens := by
  cases tokens with
  | nil => rfl
  | cons token later =>
      dsimp only [List.head?_cons, List.tail_cons]
      split
      next mark => rw [mark, readType]
      next mark => exact readType_cons_of_ne mark

/-! ### Readers read forward -/

theorem readRank_forward : Forward readRank := by
  intro tokens
  fun_induction readRank tokens with
  | case1 rest inductionHypothesis =>
      have opened := List.suffix_append [Token.symbol '[', Token.symbol ']'] rest
      exact (unread_bind_isSuffix fun _ => List.suffix_refl).trans (inductionHypothesis.trans opened)
  | case2 rest => exact List.suffix_cons _ rest
  | case3 rest => exact List.suffix_cons _ rest
  | case4 rest => exact List.suffix_refl rest

/-- An opening bracket is read whether or not the rank is. -/
theorem unread_readRank_open_isSuffix (tokens : List Token) :
    unread (readRank (.symbol '[' :: tokens)) <:+ tokens := by
  rw [readRank_open]
  split
  next =>
    refine (unread_bind_isSuffix fun _ => List.suffix_refl).trans ?_
    exact (readRank_forward tokens.tail).trans (List.tail_suffix tokens)
  next => exact List.suffix_refl tokens

theorem closeWildcard_forward (bound : BoundKind) (constraints : List Signature) :
    Forward (closeWildcard bound constraints) := by
  intro tokens
  rw [closeWildcard_eq]
  split <;> exact List.suffix_refl _

/-- The end of an argument list reads at most its closing bracket. -/
theorem unread_closeArguments_isSuffix (arguments : List Signature) (tokens : List Token) :
    unread (if tokens.head? = some (.symbol '>') then Except.ok (arguments, tokens.tail)
      else .error (.here .expectedCommaOrClose tokens)) <:+ tokens := by
  split
  next => exact List.tail_suffix tokens
  next => exact List.suffix_refl tokens

section Nested

variable {limit : Nat} {nested : Place → Reader Signature}
  (forward : ∀ place, Forward (nested place))

include forward

/-- Arguments are read forward when the types in them are. -/
theorem readArguments_forward : Forward (readArguments limit nested) := by
  intro tokens
  rw [readArguments_eq]
  split
  next => exact List.suffix_refl _
  next =>
    exact (unread_bind_isSuffix unread_closeArguments_isSuffix).trans
      (readChain_forward (forward .beforeNext) ',' limit tokens)

/-- The word of a segment is read whether or not its arguments are. -/
theorem unread_readSegment_word_isSuffix {first : Char} (starts : isIdentifierStart first = true)
    (letters : List Char) (tokens : List Token) :
    unread (readSegment limit nested (.word (first :: letters) :: tokens)) <:+ tokens := by
  rw [readSegment_word limit nested tokens starts]
  split
  next =>
    refine (unread_bind_isSuffix fun _ => List.suffix_refl).trans ?_
    exact (readArguments_forward forward tokens.tail).trans (List.tail_suffix tokens)
  next => exact List.suffix_refl tokens

/-- A segment reads forward; the word at its head is what it chooses by. -/
theorem readSegment_forward : Forward (readSegment limit nested) := by
  intro tokens
  by_cases word : ∃ first letters, isIdentifierStart first = true ∧
      tokens.head? = some (.word (first :: letters))
  · obtain ⟨first, letters, starts, head⟩ := word
    obtain ⟨later, rfl⟩ := List.head?_eq_some_iff.mp head
    exact (unread_readSegment_word_isSuffix forward starts letters later).trans
      (List.suffix_cons _ later)
  · rw [readSegment_eq_error limit nested word]
    exact List.suffix_refl tokens

theorem readNamed_forward : Forward (readNamed limit nested) := by
  intro tokens
  refine (unread_bind_isSuffix ?_).trans
    (readChain_forward (readSegment_forward forward) '.' limit tokens)
  intro segments rest
  exact (unread_bind_isSuffix fun _ => List.suffix_refl).trans (readRank_forward rest)

/-- A wildcard reads forward, with bounds or without. -/
theorem readWildcard_forward : Forward (readWildcard limit nested) := by
  intro tokens
  rw [readWildcard_eq]
  split
  next =>
    split
    next bound _ =>
      refine (unread_bind_isSuffix (closeWildcard_forward bound)).trans ?_
      exact (readChain_forward (forward .afterLast) '&' limit _).trans (List.tail_suffix tokens)
    next => exact closeWildcard_forward _ _ _
  next => exact closeWildcard_forward _ _ _

end Nested

/-- Types read forward at every level of nesting. -/
theorem readType_forward (limit levels : Nat) (place : Place) :
    Forward (readType limit levels place) := by
  induction levels generalizing place with
  | zero => exact List.suffix_refl
  | succ levels inductionHypothesis =>
      intro tokens
      rw [readType_succ_eq]
      split
      next => exact List.suffix_refl _
      next =>
        split
        next =>
          exact (readWildcard_forward inductionHypothesis _).trans (List.tail_suffix tokens)
        next => exact readNamed_forward inductionHypothesis _

/-- A text that holds no signature has tokens that were not read. -/
theorem readWhole_forward {tokens : List Token} {stuck : Stuck}
    (failed : readWhole tokens = .error stuck) : stuck.rest <:+ tokens := by
  have left := readType_forward tokens.length maximalNesting .beforeNext tokens
  rcases readWhole_stuck failed with inside | ⟨signature, read⟩
  · rwa [inside] at left
  · rwa [read] at left

end TypeGraph.Signature
