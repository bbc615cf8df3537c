import MonkeySyntax.Tree.Basic

/-! Equality of trees is decidable. Two integers are equal only when both their values and their
literals are. -/
namespace MonkeySyntax

mutual

def Expr.same : Expr → Expr → Bool
  | .identifier a, .identifier b => a == b
  | .integer v a, .integer w b => v == w && a == b
  | .boolean a, .boolean b => a == b
  | .unary o a, .unary p b => o == p && a.same b
  | .binary l o r, .binary l' o' r' => l.same l' && o == o' && r.same r'
  | .conditional c t none, .conditional c' t' none => c.same c' && sameBlock t t'
  | .conditional c t (some e), .conditional c' t' (some e') =>
    c.same c' && sameBlock t t' && sameBlock e e'
  | .function ps b, .function qs b' => ps == qs && sameBlock b b'
  | .call f as, .call g bs => f.same g && sameArguments as bs
  | _, _ => false
termination_by structural a => a

def Stmt.same : Stmt → Stmt → Bool
  | .binding n v, .binding m w => n == m && v.same w
  | .returning none, .returning none => true
  | .returning (some v), .returning (some w) => v.same w
  | .expression v, .expression w => v.same w
  | .block a, .block b => sameBlock a b
  | _, _ => false
termination_by structural a => a

def sameBlock : List Stmt → List Stmt → Bool
  | [], [] => true
  | a :: as, b :: bs => a.same b && sameBlock as bs
  | _, _ => false
termination_by structural a => a

def sameArguments : List Expr → List Expr → Bool
  | [], [] => true
  | a :: as, b :: bs => a.same b && sameArguments as bs
  | _, _ => false
termination_by structural a => a

end

mutual

theorem Expr.same_iff : ∀ a b : Expr, a.same b = true ↔ a = b
  | .identifier _, b => by cases b <;> simp [Expr.same]
  | .integer _ _, b => by cases b <;> simp [Expr.same]
  | .boolean _, b => by cases b <;> simp [Expr.same]
  | .unary _ x, b => by cases b <;> simp [Expr.same, Expr.same_iff x]
  | .binary l _ r, b => by
    cases b <;> simp [Expr.same, Expr.same_iff l, Expr.same_iff r, and_assoc]
  | .conditional c t none, b => by
    rcases b with _ | _ | _ | _ | _ | ⟨_, _, _ | _⟩ | _ | _ <;>
      simp [Expr.same, Expr.same_iff c, sameBlock_iff t]
  | .conditional c t (some e), b => by
    rcases b with _ | _ | _ | _ | _ | ⟨_, _, _ | _⟩ | _ | _ <;>
      simp [Expr.same, Expr.same_iff c, sameBlock_iff t, sameBlock_iff e, and_assoc]
  | .function _ t, b => by cases b <;> simp [Expr.same, sameBlock_iff t]
  | .call f as, b => by cases b <;> simp [Expr.same, Expr.same_iff f, sameArguments_iff as]

theorem Stmt.same_iff : ∀ a b : Stmt, a.same b = true ↔ a = b
  | .binding _ v, b => by cases b <;> simp [Stmt.same, Expr.same_iff v]
  | .returning none, b => by rcases b with _ | (_ | _) | _ | _ <;> simp [Stmt.same]
  | .returning (some v), b => by
    rcases b with _ | (_ | _) | _ | _ <;> simp [Stmt.same, Expr.same_iff v]
  | .expression v, b => by cases b <;> simp [Stmt.same, Expr.same_iff v]
  | .block t, b => by cases b <;> simp [Stmt.same, sameBlock_iff t]

theorem sameBlock_iff : ∀ a b : List Stmt, sameBlock a b = true ↔ a = b
  | [], b => by cases b <;> simp [sameBlock]
  | s :: rest, b => by cases b <;> simp [sameBlock, Stmt.same_iff s, sameBlock_iff rest]

theorem sameArguments_iff : ∀ a b : List Expr, sameArguments a b = true ↔ a = b
  | [], b => by cases b <;> simp [sameArguments]
  | e :: rest, b => by cases b <;> simp [sameArguments, Expr.same_iff e, sameArguments_iff rest]

end

instance : DecidableEq Expr := fun a b => decidable_of_iff _ (Expr.same_iff a b)

instance : DecidableEq Stmt := fun a b => decidable_of_iff _ (Stmt.same_iff a b)

end MonkeySyntax
