import MonkeySyntax.Proofs.Scan.Next

/-! The tokens of a text, characterized by the text alone. A list of tokens is compared with the
text from an origin on, so that the rest of a list is compared with the rest of the same text;
offsets never shift. -/
namespace MonkeySyntax

open Text

/-- The tokens are those of the text from the origin on. -/
structure Tokenization (file : String) (text : List Char) (origin : Nat) (tokens : List Token) :
    Prop where
  ended : ∃ before, tokens = before ++ [⟨.eof, "", file, text.length, text.length⟩] ∧
    ∀ token ∈ before, token.kind ≠ .eof
  within : ∀ token ∈ tokens, token.span.file = file
  since : ∀ token ∈ tokens, origin ≤ token.span.start
  ordered : tokens.Pairwise fun one later => one.span.stop ≤ later.span.start
  nonempty : ∀ token ∈ tokens, token.kind ≠ .eof → token.span.start < token.span.stop
  literal : ∀ token ∈ tokens, token.literal.toList =
    (text.drop token.span.start).take (token.span.stop - token.span.start)
  blank : ∀ i c, origin ≤ i → text[i]? = some c →
    (∀ token ∈ tokens, ¬ (token.span.start ≤ i ∧ i < token.span.stop)) → isBlank c
  longest : ∀ token ∈ tokens, Ends token.literal.toList (text.drop token.span.stop)
  spelled : ∀ token ∈ tokens, token.kind ≠ .eof → Spells token.kind token.literal.toList

namespace Tokenization

variable {file : String} {text blanks literal after : List Char} {origin : Nat} {kind : Kind}
  {token : Token} {tokens : List Token}

theorem mem_drop {i : Nat} {c : Char} (from' : origin ≤ i) (here : text[i]? = some c) :
    c ∈ text.drop origin := by
  apply List.mem_of_getElem? (i := i - origin)
  rw [List.getElem?_drop, Nat.add_sub_cancel' from']
  exact here

/-- The first character of a token is that of the text at its start. -/
theorem head (given : Tokenization file text origin tokens) (member : token ∈ tokens)
    (proper : token.kind ≠ .eof) :
    ∃ c, text[token.span.start]? = some c ∧ isBlank c = false := by
  obtain ⟨nonempty, solid⟩ := (given.spelled token member proper).solid
  obtain ⟨c, tail, same⟩ := List.exists_cons_of_ne_nil nonempty
  refine ⟨c, ?_, solid c (by rw [same]; exact .head tail)⟩
  have length := given.nonempty token member proper
  have first : (token.literal.toList)[0]? = some c := by rw [same]; rfl
  rw [given.literal token member, List.getElem?_take_of_lt (by omega), List.getElem?_drop] at first
  exact first

theorem iff_of_blanks (origin_le : origin ≤ text.length)
    (blank : ∀ c ∈ text.drop origin, isBlank c) :
    Tokenization file text origin tokens ↔
      tokens = [⟨.eof, "", file, text.length, text.length⟩] := by
  constructor
  · intro given
    obtain ⟨before, rfl, proper⟩ := given.ended
    cases before with
    | nil => rfl
    | cons token before =>
      obtain ⟨c, here, solid⟩ := given.head (.head _) (proper token (.head before))
      rw [blank c (mem_drop (given.since token (.head _)) here)] at solid
      cases solid
  · rintro rfl
    have only {p : Token → Prop} (holds : p ⟨.eof, "", file, text.length, text.length⟩) :
        ∀ token ∈ [(⟨.eof, "", file, text.length, text.length⟩ : Token)], p token := by
      simpa using holds
    exact {
      ended := ⟨[], rfl, nofun⟩
      within := only rfl
      since := only origin_le
      ordered := List.pairwise_singleton ..
      nonempty := only fun proper => absurd rfl proper
      literal := only (by simp)
      blank := fun i c later here _ => blank c (mem_drop later here)
      longest := only (by simp [Ends])
      spelled := only fun proper => absurd rfl proper }

theorem tail (given : Tokenization file text origin (token :: tokens))
    (proper : token.kind ≠ .eof) :
    Tokenization file text token.span.stop tokens where
  ended := by
    obtain ⟨before, same, others⟩ := given.ended
    cases before with
    | nil =>
      cases same
      exact absurd rfl proper
    | cons first before =>
      cases same
      exact ⟨before, rfl, (List.forall_mem_cons.mp others).2⟩
  within := (List.forall_mem_cons.mp given.within).2
  since := (List.pairwise_cons.mp given.ordered).1
  ordered := (List.pairwise_cons.mp given.ordered).2
  nonempty := (List.forall_mem_cons.mp given.nonempty).2
  literal := (List.forall_mem_cons.mp given.literal).2
  blank i c later here outside := by
    have above := given.since token (.head _)
    have length := given.nonempty token (.head _) proper
    exact given.blank i c (by omega) here (List.forall_mem_cons.mpr ⟨by omega, outside⟩)
  longest := (List.forall_mem_cons.mp given.longest).2
  spelled := (List.forall_mem_cons.mp given.spelled).2

/-- No token reaches past the end of the text. -/
theorem span_le (given : Tokenization file text origin tokens) (member : token ∈ tokens) :
    token.span.start ≤ token.span.stop ∧ token.span.stop ≤ text.length := by
  obtain ⟨before, rfl, proper⟩ := given.ended
  rcases List.mem_append.mp member with inside | last
  · have ordered := (List.pairwise_append.mp given.ordered).2.2
    exact ⟨Nat.le_of_lt (given.nonempty token member (proper token inside)),
      ordered token inside _ (.head _)⟩
  · rw [List.mem_singleton.mp last]
    exact ⟨Nat.le_refl _, Nat.le_refl _⟩

section Lexeme

variable (split : text.drop origin = blanks ++ (literal ++ after))
include split

theorem drop_lexeme : text.drop (origin + blanks.length) = literal ++ after := by
  rw [← List.drop_drop, split, List.drop_left]

theorem drop_after : text.drop (origin + blanks.length + literal.length) = after := by
  rw [← List.drop_drop, drop_lexeme split, List.drop_left]

theorem mem_blanks {i : Nat} {c : Char} (later : origin ≤ i) (sooner : i < origin + blanks.length)
    (here : text[i]? = some c) : c ∈ blanks := by
  have place : (text.drop origin)[i - origin]? = some c := by
    rw [List.getElem?_drop, Nat.add_sub_cancel' later, here]
  rw [split, List.getElem?_append_left (by omega)] at place
  exact List.mem_of_getElem? place

theorem cons (blank : ∀ c ∈ blanks, isBlank c) (spells : Spells kind literal)
    (ends : Ends literal after)
    (given : Tokenization file text (origin + blanks.length + literal.length) tokens) :
    Tokenization file text origin
      (⟨kind, String.ofList literal, file, origin + blanks.length,
        origin + blanks.length + literal.length⟩ :: tokens) where
  ended := by
    obtain ⟨before, rfl, proper⟩ := given.ended
    exact ⟨_ :: before, rfl, List.forall_mem_cons.mpr ⟨spells.ne_eof, proper⟩⟩
  within := List.forall_mem_cons.mpr ⟨rfl, given.within⟩
  since := List.forall_mem_cons.mpr ⟨Nat.le_add_right _ _, fun token member => by
    have := given.since token member
    omega⟩
  ordered := List.pairwise_cons.mpr ⟨given.since, given.ordered⟩
  nonempty := List.forall_mem_cons.mpr ⟨fun _ =>
    Nat.lt_add_of_pos_right (List.length_pos_iff.mpr spells.solid.1), given.nonempty⟩
  literal := by
    refine List.forall_mem_cons.mpr ⟨?_, given.literal⟩
    simp [drop_lexeme split]
  blank i c later here outside := by
    obtain ⟨first, others⟩ := List.forall_mem_cons.mp outside
    by_cases sooner : i < origin + blanks.length
    · exact blank c (mem_blanks split later sooner here)
    · exact given.blank i c (by simp only at first; omega) here others
  longest := by
    refine List.forall_mem_cons.mpr ⟨?_, given.longest⟩
    simpa [drop_after split] using ends
  spelled := by
    refine List.forall_mem_cons.mpr ⟨fun _ => ?_, given.spelled⟩
    simpa using spells

theorem getElem?_lexeme {first : Char} {tail : List Char} (same : literal = first :: tail) :
    text[origin + blanks.length]? = some first := by
  have place : (text.drop (origin + blanks.length))[0]? = some first := by
    rw [drop_lexeme split, same]
    rfl
  rwa [List.getElem?_drop, Nat.add_zero] at place

theorem start_eq (blank : ∀ c ∈ blanks, isBlank c) (spells : Spells kind literal)
    (given : Tokenization file text origin (token :: tokens)) (proper : token.kind ≠ .eof) :
    token.span.start = origin + blanks.length := by
  obtain ⟨some, solid⟩ := spells.solid
  obtain ⟨first, tail, same⟩ := List.exists_cons_of_ne_nil some
  have here := getElem?_lexeme split same
  have above := given.since token (.head _)
  have length := given.nonempty token (.head _) proper
  refine Nat.le_antisymm (Nat.le_of_not_lt fun late => ?_) (Nat.le_of_not_lt fun early => ?_)
  · -- No token reaches the first character of the lexeme, so it would be a blank.
    have gap := given.blank _ first (Nat.le_add_right _ _) here
    rw [solid first (by rw [same]; exact .head tail)] at gap
    refine absurd (gap (List.forall_mem_cons.mpr ⟨by omega, fun later member => ?_⟩)) nofun
    have order := (List.pairwise_cons.mp given.ordered).1 later member
    omega
  · obtain ⟨c, there, solid'⟩ := given.head (.head _) proper
    rw [blank c (mem_blanks split above early there)] at solid'
    cases solid'

theorem literal_eq (spells : Spells kind literal) (ends : Ends literal after)
    (given : Tokenization file text origin (token :: tokens)) (proper : token.kind ≠ .eof)
    (start : token.span.start = origin + blanks.length) :
    token.literal.toList = literal ∧ token.span.stop = token.span.start + literal.length := by
  have cut := given.literal token (.head _)
  have length := given.nonempty token (.head _) proper
  have inside := (given.span_le (.head _)).2
  have rest : text.drop token.span.stop =
      (text.drop token.span.start).drop (token.span.stop - token.span.start) := by
    rw [List.drop_drop, Nat.add_sub_cancel' (Nat.le_of_lt length)]
  have whole : token.literal.toList ++ text.drop token.span.stop = literal ++ after := by
    rw [cut, rest, List.take_append_drop, start, drop_lexeme split]
  -- Both are the lexeme at the head of one text, and its size is read off that text.
  have size := (given.spelled token (.head _) proper).size (given.longest token (.head _))
  rw [whole, spells.size ends] at size
  refine ⟨(List.append_inj whole size.symm).1, ?_⟩
  rw [size, cut, List.length_take, List.length_drop]
  omega

theorem eq_cons (blank : ∀ c ∈ blanks, isBlank c) (spells : Spells kind literal)
    (ends : Ends literal after) (given : Tokenization file text origin tokens) :
    ∃ rest, tokens = ⟨kind, String.ofList literal, file, origin + blanks.length,
        origin + blanks.length + literal.length⟩ :: rest ∧
      Tokenization file text (origin + blanks.length + literal.length) rest := by
  obtain ⟨before, same, proper⟩ := given.ended
  cases before with
  | nil =>
    -- The end token alone leaves the lexeme outside all spans.
    subst same
    obtain ⟨some, solid⟩ := spells.solid
    obtain ⟨first, tail, same⟩ := List.exists_cons_of_ne_nil some
    have gap := given.blank _ first (Nat.le_add_right _ _) (getElem?_lexeme split same)
    rw [solid first (by rw [same]; exact .head tail)] at gap
    refine absurd (gap ?_) nofun
    simp only [List.nil_append, List.mem_singleton, forall_eq]
    omega
  | cons token before =>
    subst same
    have proper' := proper token (.head _)
    have start := start_eq split blank spells given proper'
    obtain ⟨same, stop⟩ := literal_eq split spells ends given proper' start
    have others := given.tail proper'
    have kinds := (given.spelled token (.head _) proper').kind_eq
    rw [same, spells.kind_eq] at kinds
    have here : token = ⟨kind, String.ofList literal, file, origin + blanks.length,
        origin + blanks.length + literal.length⟩ := by
      rw [kinds, ← same, String.ofList_toList, ← given.within token (.head _)]
      rw [← start, same, ← stop]
    rw [stop, start] at others
    exact ⟨_, congrArg (List.cons · _) here, others⟩

end Lexeme

theorem iff_tokens (text : List Char) {left : Nat} {origin : Nat} {tokens : List Token}
    (left_eq : text.length = origin + left) :
    (⟨file, origin, text.drop origin⟩ : Cursor).tokens = tokens ↔
      Tokenization file text origin tokens := by
  induction left using Nat.strongRecOn generalizing origin tokens with
  | ind left ih =>
    obtain blank | ⟨blanks, kind, literal, after, split, blank, spells, ends⟩ :=
      Cursor.blanks_or_lexeme (text.drop origin)
    · have length : origin + (text.drop origin).length = text.length := by
        rw [List.length_drop]
        omega
      rw [iff_of_blanks (by omega) blank, Cursor.tokens_eq, Cursor.next_of_blanks blank, length]
      exact eq_comm
    · have some := List.length_pos_iff.mpr spells.solid.1
      have length := congrArg List.length split
      simp only [List.length_drop, List.length_append] at length
      have step : (⟨file, origin, _⟩ : Cursor).next = _ :=
        Cursor.next_of_lexeme blank spells ends
      rw [← split, ← drop_after split] at step
      have rest (tokens : List Token) :
          (⟨file, _, text.drop (origin + blanks.length + literal.length)⟩ : Cursor).tokens =
            tokens ↔ Tokenization file text (origin + blanks.length + literal.length) tokens :=
        ih (left - blanks.length - literal.length) (by omega) (by omega)
      rw [Cursor.tokens_eq, step, if_neg spells.ne_eof]
      constructor
      · rintro rfl
        exact cons split blank spells ends ((rest _).mp rfl)
      · intro given
        obtain ⟨others, same, given'⟩ := eq_cons split blank spells ends given
        rw [same, (rest others).mpr given']

theorem of_cursor (file text : String) :
    Tokenization file text.toList 0 (Cursor.ofText file text).tokens :=
  (iff_tokens text.toList (Nat.zero_add _).symm).mp rfl

theorem start_of_eof (given : Tokenization file text origin tokens) (member : token ∈ tokens)
    (kind : token.kind = .eof) : token.span.start = text.length := by
  obtain ⟨before, rfl, proper⟩ := given.ended
  rcases List.mem_append.mp member with inside | last
  · exact absurd kind (proper token inside)
  · rw [List.mem_singleton.mp last]

/-- Each token starts before all later ones, the end token included. -/
theorem increasing (given : Tokenization file text origin tokens) :
    tokens.Pairwise fun one later => one.span.start < later.span.start := by
  obtain ⟨before, rfl, proper⟩ := given.ended
  have long : ∀ token ∈ before, token.span.start < token.span.stop := fun token member =>
    given.nonempty token (List.mem_append_left _ member) (proper token member)
  obtain ⟨inside, single, last⟩ := List.pairwise_append.mp given.ordered
  refine List.pairwise_append.mpr ⟨inside.imp_of_mem fun first _ order => ?_,
    List.pairwise_singleton .., fun one member later end_ => ?_⟩
  · exact Nat.lt_of_lt_of_le (long _ first) order
  · exact Nat.lt_of_lt_of_le (long one member) (last one member later end_)

end Tokenization

/-- The offsets of the tokens of a text keep their values as words of 32 bits. -/
theorem Cursor.span_toUInt32 {file text : String} (short : text.length < 4294967296) {token : Token}
    (member : token ∈ (ofText file text).tokens) :
    token.span.start.toUInt32.toNat = token.span.start ∧
      token.span.stop.toUInt32.toNat = token.span.stop := by
  obtain ⟨start, stop⟩ := (Tokenization.of_cursor file text).span_le member
  rw [String.length_toList] at stop
  have exact' {offset : Nat} (inside : offset ≤ text.length) : offset.toUInt32.toNat = offset :=
    Nat.mod_eq_of_lt (Nat.lt_of_le_of_lt inside short)
  exact ⟨exact' (Nat.le_trans start stop), exact' stop⟩

theorem Cursor.tokens_eq_iff (file text : String) (tokens : List Token) :
    (ofText file text).tokens = tokens ↔ Tokenization file text.toList 0 tokens :=
  Tokenization.iff_tokens text.toList (Nat.zero_add _).symm

end MonkeySyntax
