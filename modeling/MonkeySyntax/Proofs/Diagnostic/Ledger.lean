import MonkeySyntax.Diagnostic.Basic
import MonkeySyntax.Parsing.Grammar
import MonkeySyntax.Parsing.Rules
import MonkeySyntax.Proofs.Scan.Tokenization

/-! Diagnostics beside the tokens that they are about. A ledger has one group of diagnostics for
each token, in the order of the tokens. The group of a token tells first that another token was
expected there and then what was found when the token itself was read, each at most once; only at
the end token, where a parser can go on reading, is there no limit. -/
namespace MonkeySyntax

def Fault.isUnexpected : Fault → Bool
  | .unexpected _ _ => true
  | _ => false

/-- The fault is true of the token. -/
inductive Fault.Fits (limit : Nat) (token : Token) : Fault → Prop
  | noStart : Grammar.standard.start token.kind = none → Fits limit token (.noStart token.kind)
  | unexpected {expected : Kind} : token.kind ≠ expected →
      Fits limit token (.unexpected expected token.kind)
  | integerRange : token.kind = .int → Text.isNumeral token.literal.toList →
      integerBound ≤ Text.decimalValue token.literal.toList →
      Fits limit token (.integerRange token.literal)
  | tooDeep : Fits limit token (.tooDeep limit)

structure Diagnostic.Blames (limit : Nat) (token : Token) (diagnostic : Diagnostic) : Prop where
  file : diagnostic.file = token.span.file
  offset : diagnostic.offset = token.span.start
  fits : diagnostic.fault.Fits limit token

/-- What can be said of a token before the end: at most that another was expected and, when it was
read, at most one thing more. A character that is not recognized never passes without the latter. -/
structure Verdict (token : Token) (early late : List Diagnostic) : Prop where
  expected : ∀ diagnostic ∈ early, diagnostic.fault.isUnexpected
  expected_once : early.length ≤ 1
  found : ∀ diagnostic ∈ late, diagnostic.fault.isUnexpected = false
  found_once : late.length ≤ 1
  illegal : token.kind = .illegal → late ≠ []

structure Remarks (limit : Nat) (token : Token) (group : List Diagnostic) : Prop where
  blames : ∀ diagnostic ∈ group, diagnostic.Blames limit token
  verdict : token.kind ≠ .eof → ∃ early late, group = early ++ late ∧ Verdict token early late

inductive Ledger (limit : Nat) : List Token → List Diagnostic → Prop
  | nil : Ledger limit [] []
  | cons {token : Token} {tokens : List Token} {group diagnostics : List Diagnostic} :
      Remarks limit token group → Ledger limit tokens diagnostics →
      Ledger limit (token :: tokens) (group ++ diagnostics)

namespace Ledger

variable {limit : Nat} {tokens later : List Token} {diagnostics more : List Diagnostic}
  {token : Token}

theorem append (ledger : Ledger limit tokens diagnostics) (rest : Ledger limit later more) :
    Ledger limit (tokens ++ later) (diagnostics ++ more) := by
  induction ledger with
  | nil => exact rest
  | cons remarks _ ih =>
    rw [List.append_assoc]
    exact .cons remarks ih

theorem snoc {group : List Diagnostic} (ledger : Ledger limit tokens diagnostics)
    (remarks : Remarks limit token group) :
    Ledger limit (tokens ++ [token]) (diagnostics ++ group) := by
  have last := Ledger.cons remarks .nil
  rw [List.append_nil] at last
  exact ledger.append last

theorem blames (ledger : Ledger limit tokens diagnostics) :
    ∀ diagnostic ∈ diagnostics, ∃ token ∈ tokens, diagnostic.Blames limit token := by
  induction ledger with
  | nil => exact List.forall_mem_nil _
  | cons remarks _ ih =>
    intro diagnostic member
    rcases List.mem_append.mp member with here | there
    · exact ⟨_, .head _, remarks.blames diagnostic here⟩
    · obtain ⟨token, later, blames⟩ := ih diagnostic there
      exact ⟨token, .tail _ later, blames⟩

/-- Behind a token, everything recorded lies behind it. -/
theorem lt_offset (ledger : Ledger limit tokens diagnostics) {start : Nat}
    (behind : ∀ token ∈ tokens, start < token.span.start) :
    ∀ diagnostic ∈ diagnostics, start < diagnostic.offset := by
  intro diagnostic member
  obtain ⟨token, there, blames⟩ := ledger.blames diagnostic member
  rw [blames.offset]
  exact behind token there

theorem ordered (ledger : Ledger limit tokens diagnostics)
    (increasing : tokens.Pairwise fun one later => one.span.start < later.span.start) :
    diagnostics.Pairwise fun one later => one.offset ≤ later.offset := by
  induction ledger with
  | nil => exact .nil
  | @cons token tokens group diagnostics remarks rest ih =>
    obtain ⟨behind, increasing⟩ := List.pairwise_cons.mp increasing
    have here : ∀ diagnostic ∈ group, diagnostic.offset = token.span.start :=
      fun diagnostic member => (remarks.blames diagnostic member).offset
    refine List.pairwise_append.mpr ⟨?_, ih increasing, fun one member later there => ?_⟩
    · exact List.pairwise_of_forall_mem_list fun one member later there =>
        Nat.le_of_eq ((here one member).trans (here later there).symm)
    · rw [here one member]
      exact Nat.le_of_lt (rest.lt_offset behind later there)

/-- The diagnostics at a token are its group. -/
theorem filter_offset (ledger : Ledger limit tokens diagnostics)
    (increasing : tokens.Pairwise fun one later => one.span.start < later.span.start)
    (member : token ∈ tokens) :
    Remarks limit token (diagnostics.filter fun d => d.offset = token.span.start) := by
  induction ledger with
  | nil => cases member
  | @cons first tokens group diagnostics remarks rest ih =>
    obtain ⟨behind, increasing⟩ := List.pairwise_cons.mp increasing
    rw [List.filter_append]
    rcases List.mem_cons.mp member with rfl | later
    · have all : group.filter (fun d => d.offset = token.span.start) = group :=
        List.filter_eq_self.mpr fun d here => by simp [(remarks.blames d here).offset]
      have none : diagnostics.filter (fun d => d.offset = token.span.start) = [] :=
        List.filter_eq_nil_iff.mpr fun d there => by
          simpa using Nat.ne_of_gt (rest.lt_offset behind d there)
      rw [all, none, List.append_nil]
      exact remarks
    · have none : group.filter (fun d => d.offset = token.span.start) = [] :=
        List.filter_eq_nil_iff.mpr fun d here => by
          simpa [(remarks.blames d here).offset] using Nat.ne_of_lt (behind token later)
      rw [none, List.nil_append]
      exact ih increasing later

end Ledger

/-- Said of a token ahead: that another was expected, at most a number of times. -/
structure Heard (limit count : Nat) (token : Token) (group : List Diagnostic) : Prop where
  blames : ∀ diagnostic ∈ group, diagnostic.Blames limit token
  expected : token.kind ≠ .eof → ∀ diagnostic ∈ group, diagnostic.fault.isUnexpected
  few : token.kind ≠ .eof → group.length ≤ count

/-- The diagnostics account for the tokens before the upcoming ones, and the first of these has been
blamed at most a number of times. -/
inductive Account (limit : Nat) (tokens : List Token) (count : Nat) :
    List Token → List Diagnostic → Prop
  | intro {passed rest : List Token} {first : Token} {record group : List Diagnostic} :
      tokens = passed ++ first :: rest → Ledger limit passed record →
      Heard limit count first group → Account limit tokens count (first :: rest) (record ++ group)

namespace Account

variable {limit count : Nat} {tokens upcoming rest : List Token} {token : Token}
  {diagnostics : List Diagnostic} {diagnostic : Diagnostic}

theorem start (some : tokens ≠ []) : Account limit tokens count tokens [] := by
  obtain ⟨first, rest, rfl⟩ := List.exists_cons_of_ne_nil some
  have heard : Heard limit count first [] :=
    ⟨List.forall_mem_nil _, fun _ => List.forall_mem_nil _, fun _ => Nat.zero_le _⟩
  have account := Account.intro (List.nil_append (first :: rest)).symm .nil heard
  exact account

theorem more (account : Account limit tokens 0 upcoming diagnostics) :
    Account limit tokens count upcoming diagnostics := by
  obtain ⟨all, ledger, heard⟩ := account
  have few (proper) := Nat.le_trans (heard.few proper) (Nat.zero_le count)
  exact .intro all ledger ⟨heard.blames, heard.expected, few⟩

theorem mem (account : Account limit tokens count (token :: rest) diagnostics) :
    token ∈ tokens := by
  obtain ⟨rfl, _, _⟩ := account
  exact List.mem_append_right _ (.head _)

/-- A token is passed: what was said of it ahead and what is found now are its whole group. -/
theorem pass (account : Account limit tokens 1 (token :: rest) diagnostics)
    (proper : token.kind ≠ .eof) (some : rest ≠ []) {late : List Diagnostic}
    (blames : ∀ diagnostic ∈ late, diagnostic.Blames limit token)
    (found : ∀ diagnostic ∈ late, diagnostic.fault.isUnexpected = false)
    (once : late.length ≤ 1) (illegal : token.kind = .illegal → late ≠ []) :
    Account limit tokens 0 rest (diagnostics ++ late) := by
  obtain @⟨passed, _, _, record, early, rfl, ledger, heard⟩ := account
  obtain ⟨first, others, rfl⟩ := List.exists_cons_of_ne_nil some
  have remarks : Remarks limit token (early ++ late) := by
    constructor
    · exact List.forall_mem_append.mpr ⟨heard.blames, blames⟩
    · intro _
      exact ⟨early, late, rfl, heard.expected proper, heard.few proper, found, once, illegal⟩
  have unheard : Heard limit 0 first [] :=
    ⟨List.forall_mem_nil _, fun _ => List.forall_mem_nil _, fun _ => Nat.le_refl 0⟩
  have account := Account.intro (List.append_cons passed token (first :: others))
    (ledger.snoc remarks) unheard
  rwa [List.append_nil, ← List.append_assoc] at account

/-- The first upcoming token was not the one expected. -/
theorem hear (account : Account limit tokens 0 (token :: rest) diagnostics)
    (blames : diagnostic.Blames limit token) (expected : diagnostic.fault.isUnexpected) :
    Account limit tokens 1 (token :: rest) (diagnostics ++ [diagnostic]) := by
  obtain @⟨passed, _, _, record, group, all, ledger, heard⟩ := account
  have heard' : Heard limit 1 token (group ++ [diagnostic]) := by
    constructor
    · exact List.forall_mem_append.mpr ⟨heard.blames, List.forall_mem_singleton.mpr blames⟩
    · intro proper
      exact List.forall_mem_append.mpr
        ⟨heard.expected proper, List.forall_mem_singleton.mpr expected⟩
    · intro proper
      simpa using heard.few proper
  have account := Account.intro all ledger heard'
  rwa [← List.append_assoc] at account

/-- At the end of the input anything more may be said. -/
theorem extend (account : Account limit tokens count (token :: rest) diagnostics)
    (ended : token.kind = .eof) {late : List Diagnostic} {count' : Nat}
    (blames : ∀ diagnostic ∈ late, diagnostic.Blames limit token) :
    Account limit tokens count' (token :: rest) (diagnostics ++ late) := by
  obtain @⟨passed, _, _, record, group, all, ledger, heard⟩ := account
  have heard' : Heard limit count' token (group ++ late) :=
    ⟨List.forall_mem_append.mpr ⟨heard.blames, blames⟩, fun proper => absurd ended proper,
      fun proper => absurd ended proper⟩
  have account := Account.intro all ledger heard'
  rwa [← List.append_assoc] at account

theorem ledger (account : Account limit tokens count [token] diagnostics)
    (ended : token.kind = .eof) : Ledger limit tokens diagnostics := by
  obtain ⟨rfl, ledger, heard⟩ := account
  exact ledger.snoc ⟨heard.blames, fun proper => absurd ended proper⟩

end Account

end MonkeySyntax
