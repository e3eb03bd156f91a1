import ArithCircuit.Ast.Node

set_option autoImplicit false
set_option relaxedAutoImplicit false

/-!
# Equality of source trees

Trees hold lists of trees, so their equality is decided by a recursion of its own. Main statement:
`same_iff`, the recursion finds equal exactly what is equal.
-/

namespace ArithCircuit.Node

mutual

/-- Whether two trees are the same, node for node. -/
def same : Node → Node → Bool
  | number s v, number s' v' => s == s' && v == v'
  | var s x l, var s' x' l' => s == s' && x == x' && sameAll l l'
  | pin s c l p m, pin s' c' l' p' m' =>
    s == s' && c == c' && sameAll l l' && p == p' && sameAll m m'
  | op s x l, op s' x' l' => s == s' && x == x' && sameAll l l'
  | declare s t n, declare s' t' n' => s == s' && t == t' && same n n'
  | call s x l, call s' x' l' => s == s' && x == x' && sameAll l l'
  | block s l, block s' l' => s == s' && sameAll l l'
  | forLoop s i c t b, forLoop s' i' c' t' b' =>
    s == s' && same i i' && same c c' && same t t' && same b b'
  | whileLoop s c b, whileLoop s' c' b' => s == s' && same c c' && same b b'
  | ret s v, ret s' v' => s == s' && same v v'
  | template s x ps b, template s' x' ps' b' => s == s' && x == x' && ps == ps' && same b b'
  | function s x ps b, function s' x' ps' b' => s == s' && x == x' && ps == ps' && same b b'
  | inclusion s f b, inclusion s' f' b' => s == s' && f == f' && sameOption b b'
  | array s l, array s' l' => s == s' && sameAll l l'
  | _, _ => false

/-- Whether two lists of trees are the same. -/
def sameAll : List Node → List Node → Bool
  | [], [] => true
  | a :: l, b :: m => same a b && sameAll l m
  | _, _ => false

/-- Whether two trees are the same or both absent. -/
def sameOption : Option Node → Option Node → Bool
  | none, none => true
  | some a, some b => same a b
  | _, _ => false

end

mutual

/-- Two trees are found to be the same exactly if they are equal. -/
theorem same_iff : (a b : Node) → (same a b = true ↔ a = b)
  | .number _ _, b => by cases b <;> simp [same]
  | .var _ _ l, b => by cases b <;> simp [same, sameAll_iff l, and_assoc]
  | .pin _ _ l _ m, b => by cases b <;> simp [same, sameAll_iff l, sameAll_iff m, and_assoc]
  | .op _ _ l, b => by cases b <;> simp [same, sameAll_iff l, and_assoc]
  | .declare _ _ n, b => by cases b <;> simp [same, same_iff n, and_assoc]
  | .call _ _ l, b => by cases b <;> simp [same, sameAll_iff l, and_assoc]
  | .block _ l, b => by cases b <;> simp [same, sameAll_iff l]
  | .forLoop _ i c t d, b => by
    cases b <;> simp [same, same_iff i, same_iff c, same_iff t, same_iff d, and_assoc]
  | .whileLoop _ c d, b => by cases b <;> simp [same, same_iff c, same_iff d, and_assoc]
  | .ret _ v, b => by cases b <;> simp [same, same_iff v]
  | .template _ _ _ d, b => by cases b <;> simp [same, same_iff d, and_assoc]
  | .function _ _ _ d, b => by cases b <;> simp [same, same_iff d, and_assoc]
  | .inclusion _ _ d, b => by cases b <;> simp [same, sameOption_iff d, and_assoc]
  | .array _ l, b => by cases b <;> simp [same, sameAll_iff l]

/-- Two lists of trees are found to be the same exactly if they are equal. -/
theorem sameAll_iff : (l m : List Node) → (sameAll l m = true ↔ l = m)
  | [], m => by cases m <;> simp [sameAll]
  | a :: l, m => by cases m <;> simp [sameAll, same_iff a, sameAll_iff l]

/-- Two trees that may be absent are found to be the same exactly if they are equal. -/
theorem sameOption_iff : (a b : Option Node) → (sameOption a b = true ↔ a = b)
  | none, b => by cases b <;> simp [sameOption]
  | some a, b => by cases b <;> simp [sameOption, same_iff a]

end

instance : DecidableEq Node := fun a b => decidable_of_iff (same a b = true) (same_iff a b)

end ArithCircuit.Node
