import TypeGraph.Proofs.Signature.Completeness

/-!
This file states the correctness of the parser for whole texts: it decides the language of
signatures and returns the trees that its texts denote.
-/

namespace TypeGraph.Signature

open Text

theorem readWhole_eq_ok_iff {tokens : List Token} {signature : Signature} :
    readWhole tokens = .ok signature ↔
      readType tokens.length maximalNesting .beforeNext tokens = .ok (signature, []) := by
  unfold readWhole
  rw [bind_eq_ok_iff]
  constructor
  · intro accepted
    obtain ⟨⟨other, rest⟩, read, next⟩ := accepted
    dsimp only at next
    split at next
    next =>
      cases next
      exact read
    next => cases next
  · intro read
    exact ⟨(signature, []), read, rfl⟩

theorem parse_eq_ok_iff_readWhole {text : String} {signature : Signature} :
    parse text = .ok signature ↔ readWhole (Token.ofChars text.toList) = .ok signature := by
  unfold parse Token.ofChars
  dsimp only
  split
  next value read => rw [read]; simp
  next stuck read => rw [read]; simp

/-- The parser accepts the texts of the grammar and returns the trees that they denote. -/
theorem parse_eq_ok_iff {text : String} {signature : Signature} :
    parse text = .ok signature ↔ Denotes maximalNesting text signature := by
  rw [parse_eq_ok_iff_readWhole, readWhole_eq_ok_iff]
  constructor
  · intro read
    obtain ⟨body, blanks, same, derives, empty, -⟩ := readType_sound _ maximalNesting .beforeNext
      text.toList signature [] (Nat.le_refl _) read
    exact ⟨body, blanks, same, Token.ofChars_eq_nil_iff.mp empty, derives⟩
  · intro accepted
    obtain ⟨body, blanks, same, blank, derives⟩ := accepted
    have empty := Token.ofChars_eq_nil_iff.mpr blank
    have follows : followsType signature (Token.ofChars blanks) := by
      rw [empty]
      refine ⟨?_, ?_⟩
      · intro token head
        cases head
      · intro head
        cases head
    have read := (readType_complete (Token.ofChars text.toList).length maximalNesting).complete
      .beforeNext body blanks signature derives follows (by rw [same])
    rwa [← same, empty] at read

/-- The parser decides the language. -/
instance (text : String) (signature : Signature) :
    Decidable (Denotes maximalNesting text signature) :=
  decidable_of_iff _ parse_eq_ok_iff

example : Denotes maximalNesting " a<?> . b [ ]..."
    ⟨"a.b", some [⟨"?", none, 0, .unbounded, []⟩], 2, .unbounded, []⟩ := by
  decide +kernel

/-- The parser accepts exactly the texts that derive from a type with at most 256 nested types, and
what it returns is the tree of the derivation, which is regular. -/
theorem parse_iff_denotes {text : String} {signature : Signature} :
    (parse text = .ok signature ↔ Denotes 256 text signature) ∧
      (parse text = .ok signature → signature.IsRegular) := by
  refine ⟨parse_eq_ok_iff, ?_⟩
  intro parsed
  obtain ⟨body, blanks, -, -, derives⟩ := parse_eq_ok_iff.mp parsed
  exact derives.isRegular

end TypeGraph.Signature
