import Mathlib.Data.List.Forall2
import MonkeySyntax.Proofs.Scan.Stream
import MonkeySyntax.Proofs.Scan.Tokenization
import MonkeySyntax.Tree.Basic

/-! Trees and tokens under a renaming. The identifiers of a tree are the names that it reads, binds
and takes as parameters; operators and numerals are none. Two texts are alike but for a renaming
when their tokens are, one by one; how the tokens are laid out is left open, and so is what illegal
characters there are. -/
namespace MonkeySyntax

mutual

@[simp] def Expr.rename (r : String → String) : Expr → Expr
  | .identifier name => .identifier (r name)
  | .integer value literal => .integer value literal
  | .boolean value => .boolean value
  | .unary operator operand => .unary operator (operand.rename r)
  | .binary left operator right => .binary (left.rename r) operator (right.rename r)
  | .conditional condition consequence none =>
    .conditional (condition.rename r) (renameBlock r consequence) none
  | .conditional condition consequence (some alternative) =>
    .conditional (condition.rename r) (renameBlock r consequence) (some (renameBlock r alternative))
  | .function parameters body => .function (parameters.map r) (renameBlock r body)
  | .call callee arguments => .call (callee.rename r) (renameArguments r arguments)
termination_by structural expr => expr

@[simp] def Stmt.rename (r : String → String) : Stmt → Stmt
  | .binding name value => .binding (r name) (value.rename r)
  | .returning none => .returning none
  | .returning (some value) => .returning (some (value.rename r))
  | .expression value => .expression (value.rename r)
  | .block statements => .block (renameBlock r statements)
termination_by structural stmt => stmt

@[simp] def renameBlock (r : String → String) : List Stmt → List Stmt
  | [] => []
  | stmt :: rest => stmt.rename r :: renameBlock r rest
termination_by structural list => list

@[simp] def renameArguments (r : String → String) : List Expr → List Expr
  | [] => []
  | expr :: rest => expr.rename r :: renameArguments r rest
termination_by structural list => list

end

theorem renameBlock_eq_map (r : String → String) (statements : List Stmt) :
    renameBlock r statements = statements.map (Stmt.rename r) := by
  induction statements with
  | nil => rfl
  | cons statement rest ih => exact congrArg _ ih

mutual

theorem Expr.rename_id : (expr : Expr) → expr.rename id = expr
  | .identifier _ | .integer _ _ | .boolean _ => rfl
  | .unary _ operand => by rw [Expr.rename, operand.rename_id]
  | .binary left _ right => by rw [Expr.rename, left.rename_id, right.rename_id]
  | .conditional condition consequence none => by
    rw [Expr.rename, condition.rename_id, renameBlock_id consequence]
  | .conditional condition consequence (some alternative) => by
    rw [Expr.rename, condition.rename_id, renameBlock_id consequence, renameBlock_id alternative]
  | .function parameters body => by rw [Expr.rename, List.map_id, renameBlock_id body]
  | .call callee arguments => by rw [Expr.rename, callee.rename_id, renameArguments_id arguments]

theorem Stmt.rename_id : (stmt : Stmt) → stmt.rename id = stmt
  | .binding _ value => by rw [Stmt.rename, value.rename_id, id]
  | .returning none => rfl
  | .returning (some value) => by rw [Stmt.rename, value.rename_id]
  | .expression value => by rw [Stmt.rename, value.rename_id]
  | .block statements => by rw [Stmt.rename, renameBlock_id statements]

theorem renameBlock_id : (statements : List Stmt) → renameBlock id statements = statements
  | [] => rfl
  | stmt :: rest => by rw [renameBlock, stmt.rename_id, renameBlock_id rest]

theorem renameArguments_id : (arguments : List Expr) → renameArguments id arguments = arguments
  | [] => rfl
  | expr :: rest => by rw [renameArguments, expr.rename_id, renameArguments_id rest]

end

structure Token.Alike (r : String → String) (one other : Token) : Prop where
  kind : other.kind = one.kind
  number : one.kind = .int → other.literal = one.literal
  name : one.kind = .ident → other.literal = r one.literal

instance (r : String → String) (one other : Token) : Decidable (one.Alike r other) :=
  decidable_of_iff (other.kind = one.kind ∧ (one.kind = .int → other.literal = one.literal) ∧
      (one.kind = .ident → other.literal = r one.literal))
    ⟨fun h => ⟨h.1, h.2.1, h.2.2⟩, fun h => ⟨h.kind, h.number, h.name⟩⟩

/-- Two texts whose tokens are alike, seen as streams. -/
structure Cursor.Renames (r : String → String) (here there : Cursor) : Prop where
  count : there.tokens.length = here.tokens.length
  alike (index : Nat) : (here.tokenAt index).Alike r (there.tokenAt index)
  /-- A symbol has one spelling, so there is nothing to rename. -/
  symbol (index : Nat) : (∃ entry ∈ symbols, entry.2 = (here.tokenAt index).kind) →
    (there.tokenAt index).literal = (here.tokenAt index).literal

namespace Cursor

theorem literal_of_symbol {file text : String} {token : Token} {literal : List Char}
    (member : token ∈ (ofText file text).tokens) (symbol : (literal, token.kind) ∈ symbols) :
    token.literal.toList = literal :=
  ((Tokenization.of_cursor file text).spelled token member (Spells.symbol symbol).ne_eof).eq_symbol
    symbol

theorem renames_of_alike {r : String → String} {file file' text text' : String}
    (alike : List.Forall₂ (Token.Alike r) (ofText file text).tokens (ofText file' text').tokens) :
    (ofText file text).Renames r (ofText file' text') := by
  have count := alike.length_eq
  have here (index : Nat) := (ofText file text).exists_getElem?_tokenAt index
  have there (index : Nat) := (ofText file' text').exists_getElem?_tokenAt index
  have same (index : Nat) :
      ((ofText file text).tokenAt index).Alike r ((ofText file' text').tokenAt index) := by
    obtain ⟨inside, atHere⟩ := List.getElem?_eq_some_iff.mp (here index)
    obtain ⟨inside', atThere⟩ := List.getElem?_eq_some_iff.mp (count ▸ there index)
    have related := alike.get inside inside'
    rwa [List.get_eq_getElem, List.get_eq_getElem, atHere, atThere] at related
  refine ⟨count.symm, same, fun index symbol => ?_⟩
  obtain ⟨⟨literal, _⟩, member, rfl⟩ := symbol
  have member' : (literal, ((ofText file' text').tokenAt index).kind) ∈ symbols := by
    rwa [(same index).kind]
  have one := literal_of_symbol (List.mem_of_getElem? (here index)) member
  have other := literal_of_symbol (List.mem_of_getElem? (there index)) member'
  exact String.toList_inj.mp (other.trans one.symm)

end Cursor

end MonkeySyntax
