import MonkeySyntax.Proofs.Parsing.Phrase
import MonkeySyntax.Proofs.Parsing.Window

/-! The language as a grammar. A category derives the terminals from `input` up to `rest` and gives
a tree. Binary operators stand on four levels, each associating to the left; nothing here knows of
tables, precedences or a window. One side condition makes the grammar unambiguous: a complete
expression is never followed by a terminal that could continue it. -/
namespace MonkeySyntax

/-- The level of a binary operator, loosest first. -/
def level? : Kind → Option Nat
  | .eq | .notEq => some 0
  | .lt | .gt => some 1
  | .plus | .minus => some 2
  | .asterisk | .slash => some 3
  | _ => none

def Continues (kind : Kind) : Prop := (level? kind).isSome ∨ kind = .lparen

/-- A semicolon that follows a statement belongs to it. -/
inductive Terminated : List Terminal → List Terminal → Prop
  | semicolon : first.kind = .semicolon → Terminated (first :: rest) rest
  | bare : headKind rest ≠ .semicolon → Terminated rest rest

inductive Category : Form → Type where
  | program : Category (.list .statement)
  | block : Category (.list .statement)
  | statements : Category (.list .statement)
  | statement : Category .statement
  | expression : Category .expression
  | level (n : Nat) : Category .expression
  | unary : Category .expression
  | call : Category .expression
  | primary : Category .expression
  | items (items : Items item) : Category (.list item)
  | enclosed (items : Items item) : Category (.list item)

inductive Derives :
    {form : Form} → Category form → List Terminal → form.Tree → List Terminal → Prop where
  | program : Derives .statements input list [last] → last.kind = .eof →
      Derives .program input list []
  | block : opening.kind = .lbrace → Derives .statements input list (close :: rest) →
      close.kind = .rbrace → Derives .block (opening :: input) list rest
  | openBlock : opening.kind = .lbrace → Derives .statements input list [last] →
      last.kind = .eof → Derives .block (opening :: input) list [last]
  | none : Derives .statements rest [] rest
  | more : Derives .statement input value middle → Derives .statements middle list rest →
      Derives .statements input (value :: list) rest
  | binding : word.kind = .letWord → name.kind = .ident → sign.kind = .assign →
      Derives .expression input value middle → Terminated middle rest →
      Derives .statement (word :: name :: sign :: input) (.binding name.literal value) rest
  | bareReturn : word.kind = .returnWord → headKind input ∈ [.semicolon, .rbrace, .eof] →
      Terminated input rest → Derives .statement (word :: input) (.returning .none) rest
  | returning : word.kind = .returnWord → headKind input ∉ [.semicolon, .rbrace, .eof] →
      Derives .expression input value middle → Terminated middle rest →
      Derives .statement (word :: input) (.returning (some value)) rest
  | alone : Derives .expression input value middle → Terminated middle rest →
      Derives .statement input (.expression value) rest
  | expression : Derives (.level 0) input value rest → ¬ Continues (headKind rest) →
      Derives .expression input value rest
  | binary : Derives (.level n) input left (sign :: middle) → level? sign.kind = some n →
      Derives (.level (n + 1)) middle right rest →
      Derives (.level n) input (.binary left sign.literal right) rest
  | tighter : n < 4 → Derives (.level (n + 1)) input value rest →
      Derives (.level n) input value rest
  | tightest : Derives .unary input value rest → Derives (.level 4) input value rest
  | unary : sign.kind ∈ [.bang, .minus] → Derives .unary input operand rest →
      Derives .unary (sign :: input) (.unary sign.literal operand) rest
  | applied : Derives .call input value rest → Derives .unary input value rest
  | call : Derives .call input callee middle → Derives (.enclosed .arguments) middle list rest →
      Derives .call input (.call callee list) rest
  | uncalled : Derives .primary input value rest → Derives .call input value rest
  | identifier : first.kind = .ident →
      Derives .primary (first :: rest) (.identifier first.literal) rest
  | integer : first.kind = .int → Text.isNumeral first.literal.toList →
      Text.decimalValue first.literal.toList < integerBound →
      Derives .primary (first :: rest)
        (.integer (Text.decimalValue first.literal.toList) first.literal) rest
  | true : first.kind = .trueWord → Derives .primary (first :: rest) (.boolean Bool.true) rest
  | false : first.kind = .falseWord → Derives .primary (first :: rest) (.boolean Bool.false) rest
  | grouped : opening.kind = .lparen → Derives .expression input value (close :: rest) →
      close.kind = .rparen → Derives .primary (opening :: input) value rest
  | conditional : word.kind = .ifWord → opening.kind = .lparen →
      Derives .expression input condition (close :: middle) → close.kind = .rparen →
      Derives .block middle consequence rest →
      Derives .primary (word :: opening :: input) (.conditional condition consequence .none) rest
  | alternative : word.kind = .ifWord → opening.kind = .lparen →
      Derives .expression input condition (close :: middle) → close.kind = .rparen →
      Derives .block middle consequence (word' :: last) → word'.kind = .elseWord →
      Derives .block last alternative rest →
      Derives .primary (word :: opening :: input)
        (.conditional condition consequence (some alternative)) rest
  | function : word.kind = .function → Derives (.enclosed .parameters) input parameters middle →
      Derives .block middle body rest →
      Derives .primary (word :: input) (.function parameters body) rest
  | empty {items : Items item} : opening.kind = .lparen → close.kind = .rparen →
      Derives (.enclosed items) (opening :: close :: rest) [] rest
  | full {items : Items item} : opening.kind = .lparen →
      Derives (.items items) input list (close :: rest) → close.kind = .rparen →
      Derives (.enclosed items) (opening :: input) list rest
  | lastParameter : first.kind = .ident →
      Derives (.items .parameters) (first :: rest) [first.literal] rest
  | parameter : first.kind = .ident → comma.kind = .comma →
      Derives (.items .parameters) input names rest →
      Derives (.items .parameters) (first :: comma :: input) (first.literal :: names) rest
  | lastArgument : Derives .expression input argument rest →
      Derives (.items .arguments) input [argument] rest
  | argument : Derives .expression input argument (comma :: middle) → comma.kind = .comma →
      Derives (.items .arguments) middle list rest →
      Derives (.items .arguments) input (argument :: list) rest

end MonkeySyntax
