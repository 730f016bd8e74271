import GridGame.Tree

/-!
# Visiting a tree

A visitor is asked about each node of a subtree in program order. It answers with some text to
append, and says whether the walk goes on below the node, goes on after it, or ends there.
-/

namespace GridGame

/-- What a visitor makes of a node. -/
inductive Visit where
  /-- Append a text and go on with the children. -/
  | descend (text : String)
  /-- Append a text and leave the children out. -/
  | skip (text : String)
  /-- End the walk with a message. -/
  | fail (message : String)

/-- The text that a walk appended, and the message it ended with if it failed. -/
structure Visited where
  text : String
  failure : Option String
deriving DecidableEq, Inhabited

namespace Visited

/-- Continue after a walk, unless it failed. -/
def andThen (v : Visited) (next : Unit → Visited) : Visited :=
  match v.failure with
  | some _ => v
  | none =>
    let w := next ()
    ⟨v.text ++ w.text, w.failure⟩

/-- Walk through the members of a list in turn until one fails. -/
def each {α : Type} (visit : α → Visited) : List α → Visited
  | [] => ⟨"", none⟩
  | x :: xs => (visit x).andThen fun _ => each visit xs

end Visited

namespace Tree

/-- Walk the subtree at `n` with a visitor. -/
def visit (t : Tree) (visitor : Nat → Visit) (n : Nat) : Visited :=
  match visitor n with
  | .fail message => ⟨"", some message⟩
  | .skip text => ⟨text, none⟩
  | .descend text =>
    (⟨text, none⟩ : Visited).andThen fun _ =>
      Visited.each (fun c => t.visit visitor c.1) (t.children n).attach
termination_by t.size - n
decreasing_by exact size_sub_lt c.2

/-- The visitor that writes a text for every unrefined node. -/
def nameUnrefined (t : Tree) (write : Nat → String) (n : Nat) : Visit :=
  if t.kind n = .unrefined then .descend (write n) else .descend ""

/-- The visitor that writes a text for the outermost literals and names and fails on an unrefined
node. -/
def nameLeaves (t : Tree) (write : Nat → String) (n : Nat) : Visit :=
  match t.kind n with
  | .operator | .string | .ident | .integer | .boolean => .skip (write n)
  | .unrefined => .fail (t.describe n)
  | _ => .descend ""

end Tree

end GridGame
