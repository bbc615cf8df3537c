/-! Trees of the Monkey language. Operators and literals keep their source text, so a tree can be
built whose operator or literal is not one of the language's; nothing here rules that out. -/
namespace MonkeySyntax

mutual

inductive Expr where
  | identifier (name : String)
  | integer (value : Int) (literal : String)
  | boolean (value : Bool)
  | unary (operator : String) (operand : Expr)
  | binary (left : Expr) (operator : String) (right : Expr)
  | conditional (condition : Expr) (consequence : List Stmt) (alternative : Option (List Stmt))
  | function (parameters : List String) (body : List Stmt)
  | call (callee : Expr) (arguments : List Expr)

inductive Stmt where
  | binding (name : String) (value : Expr)
  | returning (value : Option Expr)
  | expression (value : Expr)
  | block (statements : List Stmt)

end

abbrev Block := List Stmt

abbrev Program := List Stmt

instance : Inhabited Expr := ⟨.boolean false⟩

instance : Inhabited Stmt := ⟨.block []⟩

end MonkeySyntax
